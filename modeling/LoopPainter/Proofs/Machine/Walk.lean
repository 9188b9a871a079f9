import LoopPainter.Machine.Run
import LoopPainter.Proofs.Machine.Step

/-!
# Runs as walks

`Walk m ms m'` says that `m` gets to `m'` by steps that are all taken, and lists in
`ms` the machines that took them.  The list is the whole history of a run: its
length is the number of steps, the cursors of its members are the positions that
were executed, and those among them that read an `S` are the pauses.

The runs of `Machine.Run` are computed by `follow`, which shows every step to an
observer.  `follow_of_walk` turns each of them into a fold over the history, from
which `run_of_walk`, `countPauses_of_walk` and `pauseLooks_of_walk` are read off.
Every machine has such a history (`exists_walk_halted`), and what every step keeps
holds all along it (`Walk.invariant`).
-/

namespace LoopPainter.Machine

/-- `m` gets to `last` by the steps that the machines `ms` take in turn. -/
inductive Walk : Machine → List Machine → Machine → Prop where
  | stay (m : Machine) : Walk m [] m
  | step {m next last : Machine} {e : Event} {ms : List Machine}
      (hstep : m.step = (.ok e, next)) (rest : Walk next ms last) : Walk m (m :: ms) last

namespace Walk

variable {m m' last : Machine} {ms ms' : List Machine}

theorem single {e : Event} (hstep : m.step = (.ok e, m')) : Walk m [m] m' :=
  .step hstep (.stay m')

theorem append (h : Walk m ms m') (h' : Walk m' ms' last) : Walk m (ms ++ ms') last := by
  induction h with
  | stay m => exact h'
  | step hstep _ ih => exact .step hstep (ih h')

/-- What holds at the start and is kept by every step that is taken holds all the way. -/
theorem invariant {P : Machine → Prop} (h : Walk m ms last) (hstart : P m)
    (hkeep : ∀ {m e next}, P m → m.step = (.ok e, next) → P next) :
    P last ∧ ∀ m ∈ ms, P m := by
  induction h with
  | stay m => exact ⟨hstart, by simp⟩
  | step hstep _ ih =>
      obtain ⟨hlast, hall⟩ := ih (hkeep hstart hstep)
      exact ⟨hlast, List.forall_mem_cons.mpr ⟨hstart, hall⟩⟩

end Walk

variable {m m' last : Machine} {ms : List Machine} {halt : Halt}

/-! ## The runs in terms of walks -/

section Follow

variable {α : Type} (note : α → Event → Machine → α)

/-- What an observer makes of the step of `m`. -/
def observe (acc : α) (m : Machine) : α :=
  match m.step with
  | (.ok e, next) => note acc e next
  | (.error _, _) => acc

theorem observe_of_ok {e : Event} (acc : α) (h : m.step = (.ok e, m')) :
    observe note acc m = note acc e m' := by
  rw [observe, h]

theorem follow_of_error (acc : α) (h : m.step = (.error halt, last)) :
    follow note acc m = (acc, halt, last) := by
  rw [follow]
  split
  · next heq =>
      rw [h] at heq
      cases heq
      rfl
  · next heq =>
      rw [h] at heq
      cases heq

theorem follow_of_walk (acc : α) (h : Walk m ms last) :
    follow note acc m = follow note (ms.foldl (observe note) acc) last := by
  induction h generalizing acc with
  | stay m => rfl
  | @step m next last e ms hstep _ ih =>
      rw [List.foldl_cons, observe_of_ok note acc hstep, ← ih, follow]
      split
      · next heq =>
          rw [hstep] at heq
          cases heq
      · next heq =>
          rw [hstep] at heq
          cases heq
          rfl

/-- An observed run that comes to a halt, in terms of its history. -/
theorem follow_of_halted (acc : α) (h : Walk m ms m') (hhalt : m'.step = (.error halt, last)) :
    follow note acc m = (ms.foldl (observe note) acc, halt, last) := by
  rw [follow_of_walk note acc h, follow_of_error note _ hhalt]

end Follow

/-- Every machine comes to a halt. -/
theorem exists_walk_halted (m : Machine) :
    ∃ ms m' halt last, Walk m ms m' ∧ m'.step = (.error halt, last) := by
  induction hn : m.remaining using Nat.strongRecOn generalizing m with
  | _ n ih =>
      match hstep : m.step with
      | (.error halt, last) => exact ⟨[], m, halt, last, .stay m, hstep⟩
      | (.ok e, next) =>
          obtain ⟨ms, m', halt, last, hwalk, hhalt⟩ :=
            ih _ (hn ▸ remaining_lt_of_step hstep) next rfl
          exact ⟨m :: ms, m', halt, last, .step hstep hwalk, hhalt⟩

/-- A run counts the steps of the history. -/
theorem run_of_walk (h : Walk m ms m') (hhalt : m'.step = (.error halt, last)) :
    m.run = (ms.length, halt, last) := by
  have hcount : ∀ n, ms.foldl (observe fun n _ _ => n + 1) n = n + ms.length := by
    intro n
    clear hhalt
    induction h generalizing n with
    | stay m => rfl
    | step hstep _ ih =>
        rw [List.foldl_cons, ih, observe_of_ok _ _ hstep, List.length_cons]
        omega
  rw [run, follow_of_halted _ _ h hhalt, hcount, Nat.zero_add]

/-! ## Pauses -/

/-- What can be seen of a machine that is about to pause. -/
def pauseLook (m : Machine) : Option (Painter × Canvas) :=
  if m.current? = some 'S' then some m.look else none

/-- What can be seen at the pauses of a run, in the order in which they come. -/
def pauseLooks (m : Machine) : List (Painter × Canvas) :=
  (follow (fun seen e next => if e = .pause then seen ++ [next.look] else seen) [] m).1

theorem Walk.inside (h : Walk m ms last) (hin : m.Inside) :
    last.Inside ∧ last.commands = m.commands ∧ ∀ m' ∈ ms, m'.Inside := by
  obtain ⟨hlast, hall⟩ := h.invariant (P := fun m' => m'.Inside ∧ m'.commands = m.commands)
    ⟨hin, rfl⟩ fun ⟨hin', hp⟩ hstep =>
      ⟨(hin'.step hstep).1, (hin'.step hstep).2.trans hp⟩
  exact ⟨hlast.1, hlast.2, fun m' hm' => (hall m' hm').1⟩

/-- An observer who attends to the pauses alone sees the machines of the history that read an
`S`. -/
theorem foldl_observe_pause {α : Type} (g : α → Painter × Canvas → α) (acc : α)
    (h : Walk m ms last) (hin : m.Inside) :
    ms.foldl (observe fun acc e next => if e = .pause then g acc next.look else acc) acc =
      (ms.filterMap pauseLook).foldl g acc := by
  induction h generalizing acc with
  | stay m => rfl
  | @step m next last e ms hstep _ ih =>
      obtain ⟨hpause, hlook⟩ := hin.pause_iff hstep
      rw [List.foldl_cons, ih _ (hin.step hstep).1, observe_of_ok _ _ hstep]
      by_cases hS : m.current? = some 'S'
      · simp [pauseLook, hS, hpause.mpr hS, hlook (hpause.mpr hS)]
      · simp [pauseLook, hS, mt hpause.mp hS]

/-- What is seen at the pauses of a run is what its history shows at each `S`. -/
theorem pauseLooks_of_walk (h : Walk m ms m') (hin : m.Inside)
    (hhalt : m'.step = (.error halt, last)) : m.pauseLooks = ms.filterMap pauseLook := by
  rw [pauseLooks, follow_of_halted _ _ h hhalt,
    foldl_observe_pause (fun seen look => seen ++ [look]) _ h hin, List.foldl_append_eq_append,
    List.nil_append, ← List.flatMap_def, List.flatMap_singleton']

/-- A run pauses once for every machine of its history that reads an `S`. -/
theorem countPauses_of_walk (h : Walk m ms m') (hin : m.Inside)
    (hhalt : m'.step = (.error halt, last)) :
    m.countPauses = ((ms.filterMap pauseLook).length, halt, last) := by
  rw [countPauses, follow_of_halted _ _ h hhalt, foldl_observe_pause (fun n _ => n + 1) _ h hin,
    List.foldl_add_const]
  simp

end LoopPainter.Machine
