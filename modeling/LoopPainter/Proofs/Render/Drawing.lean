import LoopPainter.Proofs.Machine.Passage
import LoopPainter.Proofs.Sampler
import LoopPainter.Render.Drawing

/-!
# A drawing is a run that is watched

The program of a job is run by the same `follow` as any other program, with an observer that counts
the steps, samples the canvas at the pauses and takes notes.  An observer of `follow` sees the run
but does not touch it, so any part of what it keeps is kept as well by an observer that keeps no
more than that part (`follow_project`).  Hence a drawing takes the steps of `run`, halts where `run`
halts and leaves its machine (`run_startMachine`), and its sampler is the one that has seen the
canvases of `pauseLooks` in their order (`sampler_ofJob`).
-/

namespace LoopPainter

namespace Machine

variable {α β : Type} {m : Machine}

/-- What an observer makes of a run shows in every view of it that a second observer keeps up. -/
theorem follow_project {note : α → Event → Machine → α} (note' : β → Event → Machine → β)
    (view : α → β) (hview : ∀ acc e next, view (note acc e next) = note' (view acc) e next)
    (acc : α) (m : Machine) :
    follow note' (view acc) m =
      (view (follow note acc m).1, (follow note acc m).2.1, (follow note acc m).2.2) := by
  obtain ⟨ms, m', halt, last, hwalk, hhalt⟩ := exists_walk_halted m
  have hobserve : ∀ acc m, view (observe note acc m) = observe note' (view acc) m := by
    intro acc m
    unfold observe
    split
    · exact hview _ _ _
    · rfl
  rw [follow_of_halted _ _ hwalk hhalt, follow_of_halted _ _ hwalk hhalt]
  rw [List.foldl_hom view fun acc m => (hobserve acc m).symm]

/-- What is made of the pauses of a run is made of what is seen at them. -/
theorem follow_pauses (hin : m.Inside) (g : α → Painter × Canvas → α) (acc : α) :
    (follow (fun acc e next => if e = .pause then g acc next.look else acc) acc m).1 =
      m.pauseLooks.foldl g acc := by
  obtain ⟨ms, m', halt, last, hwalk, hhalt⟩ := exists_walk_halted m
  rw [follow_of_halted _ _ hwalk hhalt, pauseLooks_of_walk hwalk hin hhalt]
  exact foldl_observe_pause g acc hwalk hin

end Machine

namespace Drawing

open Brackets Machine

variable (j : Job)

/-! ## What the observer of a drawing keeps -/

theorem pause_eq (p : Progress) (c : Canvas) :
    (p.pause c).steps = p.steps ∧ (p.pause c).sampler = p.sampler.pause c := by
  unfold Progress.pause Sampler.pause
  split
  · next heq => exact ⟨rfl, by rw [heq]⟩
  · next heq => exact ⟨rfl, by rw [heq]⟩

theorem steps_note (animated : Bool) (p : Progress) (e : Event) (m : Machine) :
    (p.note animated e m).steps = p.steps + 1 := by
  cases e with
  | quiet => rfl
  | jump close start => rfl
  | pause =>
      cases animated with
      | false => rfl
      | true => exact (pause_eq _ _).1

theorem sampler_note (p : Progress) (e : Event) (m : Machine) :
    (p.note true e m).sampler = if e = .pause then p.sampler.pause m.canvas else p.sampler := by
  cases e with
  | quiet => rfl
  | jump close start => rfl
  | pause => exact (pause_eq _ _).2

/-! ## Drawings and runs -/

/-- A drawing takes the steps of the run of its program, halts where it halts and leaves its
machine. -/
theorem run_startMachine :
    (startMachine j).run = ((ofJob j).steps, (ofJob j).halt, (ofJob j).machine) :=
  follow_project (fun n _ _ => n + 1) Progress.steps (steps_note j.animated)
    ⟨0, startSampler j, []⟩ (startMachine j)

/-- The pauses of the run are those of the unrolled program. -/
theorem pauseLooks_startMachine :
    (startMachine j).pauseLooks =
      ((Easel.centered j.canvas).pauses (unroll j.commands.toList)).map Easel.look := by
  obtain ⟨ms, hwalk, -, hlooks⟩ := passage_start j.commands.toList.toArray j.canvas
  rw [startMachine, pauseLooks_of_walk hwalk (inside_start _ _) (step_cutoff _ _), hlooks]

/-- The sampler of an animation has seen the canvas at every pause of the run. -/
theorem sampler_ofJob (hanimated : j.animated = true) :
    (ofJob j).sampler =
      ((startMachine j).pauseLooks.map Prod.snd).foldl Sampler.pause (startSampler j) := by
  have hin : (startMachine j).Inside := inside_start _ _
  have hproject := follow_project (fun s e next => if e = .pause then s.pause next.look.2 else s)
    Progress.sampler sampler_note ⟨0, startSampler j, []⟩ (startMachine j)
  rw [← hanimated] at hproject
  calc (ofJob j).sampler
      = (follow (fun s e next => if e = .pause then s.pause next.look.2 else s)
          (startSampler j) (startMachine j)).1 := (congrArg Prod.fst hproject).symm
    _ = (startMachine j).pauseLooks.foldl (fun s look => s.pause look.2) (startSampler j) :=
        follow_pauses hin (fun (s : Sampler) look => s.pause look.2) _
    _ = ((startMachine j).pauseLooks.map Prod.snd).foldl Sampler.pause (startSampler j) :=
        List.foldl_map.symm

end Drawing

end LoopPainter
