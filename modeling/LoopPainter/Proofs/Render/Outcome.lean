import LoopPainter.Proofs.Machine.Halting
import LoopPainter.Proofs.Render.Drawing
import LoopPainter.Proofs.Store.Saving
import LoopPainter.Proofs.Text.Digits
import LoopPainter.Render

/-!
# What becomes of a render

A render breaks off with the program, and then it writes nothing (`exists_render_of_broken`), or
the program comes to its end and the image and the summary are written.  It succeeds exactly if both
are (`exists_render_eq_ok_iff`).
-/

namespace LoopPainter

open Brackets Machine

variable {j : Job} {d : Drawing} {s s' : Store} {r : Rendered} {halt : Halt}

/-- A job on a single black cell. -/
def Job.onOneCell (output : OutputPath) (commands : String) (summary : Option Path := none) :
    Job where
  width := ⟨1, by decide⟩
  height := ⟨1, by decide⟩
  background := Job.defaultBackground
  interval := Job.defaultInterval
  output := output
  commands := commands
  summary := summary

namespace Drawing

/-! ## How the program ends -/

theorem halt_ofJob (j : Job) : (ofJob j).halt = (startMachine j).run.2.1 := by
  rw [run_startMachine]

/-- A program in which some beginning has more `]` than `[` is broken off. -/
theorem exists_run_of_stray (h : ∃ k ≤ j.commands.toList.length, depth j.commands.toList k < 0) :
    ∃ (u : ℕ) (steps : ℕ) (last : Machine),
      (startMachine j).run = (steps, .unmatchedClose u, last) := by
  have hlt : cutoff j.commands.toList < j.commands.toList.toArray.size :=
    cutoff_lt_length_iff.mpr h
  obtain ⟨steps, last, -, -, hrun, -⟩ :=
    run_stray (p := j.commands.toList.toArray) j.canvas (by simpa using hlt)
  exact ⟨_, steps, last, hrun⟩

/-- Any other program comes to its end. -/
theorem halt_of_depth_nonneg
    (h : ∀ k ≤ j.commands.toList.length, 0 ≤ depth j.commands.toList k) :
    (ofJob j).halt = .endOfCommands j.commands.toList.length := by
  obtain ⟨steps, last, hrun, -⟩ :=
    run_finished (p := j.commands.toList.toArray) j.canvas (by simpa using h)
  rw [halt_ofJob, startMachine, hrun]
  simp

/-! ## Writing what was drawn -/

/-- What is given to be written of a drawing. -/
def image? (j : Job) (d : Drawing) : Option Store.Payload :=
  if j.animated then
    match d.frames with
    | [] => none
    | first :: rest =>
      some (.pictures (Export.animationOptions j.interval.val) (.rgb first) (rest.map .rgb))
  else some (.pictures {} (Export.pictureFor j.output.val d.machine.canvas) [])

theorem saveImage_eq_ok_iff :
    (d.saveImage j).run s = (.ok (), s') ↔
      ∃ w, d.image? j = some w ∧ (w.save j.output.val).run s = (.ok (), s') := by
  unfold saveImage image?
  split
  · cases d.frames with
    | nil =>
        constructor
        · nofun
        · rintro ⟨w, hw, -⟩
          cases hw
    | cons first rest =>
        simp only [Option.some.injEq, exists_eq_left']
        exact Store.run_adapt_eq_ok_iff
  · simp only [Option.some.injEq, exists_eq_left']
    exact Store.run_adapt_eq_ok_iff

/-- Write the summary of a run if the job asks for one. -/
def saveSummary (j : Job) (d : Drawing) : Store.SaveAction Unit :=
  match j.summary with
  | none => pure ()
  | some path => Yaml.saveFile path (d.summary j)

theorem run_saveSummary_of_none (h : j.summary = none) (d : Drawing) (s : Store) :
    (d.saveSummary j).run s = (.ok (), s) := by
  rw [saveSummary, h]
  rfl

/-- The numbers of a summary that can have too many digits to be written. -/
theorem hasLongNumber_summary (j : Job) (d : Drawing) :
    (d.summary j).hasLongNumber =
      (Text.isTooLong j.interval.val || Text.isTooLong d.steps ||
        Text.isTooLong (d.frameCount j) || Text.isTooLong d.position.1 ||
        Text.isTooLong d.position.2) := by
  -- sides have five digits at most, and texts are no numbers
  have hside (n : Side) : Text.isTooLong n.val = false := by
    have hlt : n.val < 10 ^ 5 := n.property.2.trans_lt (by decide)
    exact Text.isTooLong_eq_false_of_lt (by decide) hlt
  simp only [summary, Job.toDatum, Job.toPairs, Job.Field.all, List.map_cons, List.map_nil,
    Job.value, Job.colorValue, Datum.hasLongNumber, Datum.anyLongNumber, Datum.anyLongPair, hside,
    Bool.or_false, Bool.false_or]
  cases j.summary <;> simp only [Datum.hasLongNumber, Bool.or_false, Bool.or_assoc]

/-- On one cell the painter is always in the same place. -/
theorem position_onOneCell (output : OutputPath) (commands : String) (summary : Option Path) :
    (ofJob (.onOneCell output commands summary)).position = (0, 0) := by
  let j : Job := .onOneCell output commands summary
  let e := (Easel.centered j.canvas).draw (unroll j.commands.toList)
  have hmachine : (ofJob j).machine.painter = e.painter := by
    have hrun := congrArg (fun r => r.2.2.painter) (run_startMachine (j := j))
    rw [startMachine, run_start] at hrun
    exact hrun.symm
  -- the painter is on the canvas, which has one cell only
  have hwidth : e.canvas.width = 1 := (Easel.size_draw _ _).1
  have hheight : e.canvas.height = 1 := (Easel.size_draw _ _).2
  obtain ⟨hx, hx', hy, hy'⟩ := e.inside
  change ((ofJob j).machine.painter.x, (ofJob j).machine.painter.y) = (0, 0)
  rw [hmachine, Prod.mk.injEq]
  omega

/-- On one cell the only number that can be too long is that of the steps. -/
theorem hasLongNumber_summary_of_one_cell (output : OutputPath) (commands : String)
    (hstill : (Job.onOneCell output commands).animated = false) (summary : Option Path) :
    ((ofJob (.onOneCell output commands summary)).summary
        (.onOneCell output commands summary)).hasLongNumber =
      Text.isTooLong (startMachine (.onOneCell output commands)).run.1 := by
  have hframes : (ofJob (.onOneCell output commands summary)).frameCount
      (.onOneCell output commands summary) = 0 :=
    if_neg (by rw [Bool.not_eq_true]; exact hstill)
  have hzero : Text.isTooLong 0 = false :=
    Text.isTooLong_eq_false_of_lt (n := 1) (by decide) (by decide)
  have hinterval : Text.isTooLong (Job.onOneCell output commands summary).interval.val = false :=
    Text.isTooLong_eq_false_of_lt (n := 3) (by decide) (show 100 < 10 ^ 3 by decide)
  -- the machine does not depend on the paths
  have hstart : startMachine (.onOneCell output commands) =
      startMachine (.onOneCell output commands summary) := rfl
  rw [hasLongNumber_summary, position_onOneCell, hframes, hinterval, hstart, run_startMachine]
  simp [hzero]

theorem hasLongNumber_summary_onOneCell (output : OutputPath)
    (hstill : (Job.onOneCell output "").animated = false) (summary : Option Path) :
    ((ofJob (.onOneCell output "" summary)).summary (.onOneCell output "" summary)).hasLongNumber =
      false := by
  have hsteps : (startMachine (.onOneCell output "")).run.1 = 0 := by
    rw [startMachine, run_start]
    rfl
  rw [hasLongNumber_summary_of_one_cell output "" hstill, hsteps]
  exact Text.isTooLong_eq_false_of_lt (n := 1) (by decide) (by decide)

/-- A drawing is written if its image and its summary are. -/
theorem exists_save_eq_ok_iff :
    (∃ notes, d.save j s = (.ok (), s', notes)) ↔
      ∃ s₁, (d.saveImage j).run s = (.ok (), s₁) ∧ (d.saveSummary j).run s₁ = (.ok (), s') := by
  unfold save saveSummary
  constructor
  · rintro ⟨notes, h⟩
    split at h
    · cases h
    · next s₁ himage =>
        refine ⟨s₁, himage, ?_⟩
        -- without a path for it no summary is written, and this counts as success
        cases hj : j.summary with
        | none =>
            rw [hj] at h
            cases h
            rfl
        | some path =>
            rw [hj] at h
            dsimp only at h ⊢
            split at h
            · cases h
            · next hsummary =>
                cases h
                exact hsummary
  · rintro ⟨s₁, himage, hsummary⟩
    rw [himage]
    cases hj : j.summary with
    | none =>
        rw [hj] at hsummary
        cases hsummary
        exact ⟨_, rfl⟩
    | some path =>
        rw [hj] at hsummary
        dsimp only at hsummary ⊢
        rw [hsummary]
        exact ⟨_, rfl⟩

theorem save_error {f : RenderFault} {notes : List Note} (h : d.save j s = (.error f, s', notes)) :
    (∃ e, f = .image e) ∨ ∃ e, f = .summary e := by
  unfold save at h
  split at h
  · next fault _ _ =>
      cases h
      exact .inl ⟨fault, rfl⟩
  · split at h
    · cases h
    · split at h
      · next fault _ _ =>
          cases h
          exact .inr ⟨fault, rfl⟩
      · cases h

end Drawing

open Drawing

/-! ## Renders -/

/-- A program that breaks off leaves the store as it was. -/
theorem exists_render_of_broken (h : (ofJob j).halt = halt) (hbroken : ∀ i, halt ≠ .endOfCommands i)
    (s : Store) : ∃ notes, render j s = (.error (.program halt), s, notes) := by
  subst h
  unfold render
  dsimp only
  split
  · next heq => exact absurd heq (hbroken _)
  · exact ⟨_, rfl⟩

theorem render_of_end {i : ℤ} (h : (ofJob j).halt = .endOfCommands i) (s : Store) :
    ∃ notes, render j s = (((ofJob j).save j s).1.map fun () => (ofJob j).rendered j,
      ((ofJob j).save j s).2.1, notes) := by
  unfold render
  generalize ofJob j = d at h ⊢
  rcases hsave : d.save j s with ⟨result, s₁, notes⟩
  simp [h, hsave]

/-- A render succeeds if the program comes to its end and everything is written. -/
theorem exists_render_eq_ok_iff :
    (∃ notes, render j s = (.ok r, s', notes)) ↔
      (∃ i, (ofJob j).halt = .endOfCommands i) ∧ r = (ofJob j).rendered j ∧
        ∃ s₁, ((ofJob j).saveImage j).run s = (.ok (), s₁) ∧
          ((ofJob j).saveSummary j).run s₁ = (.ok (), s') := by
  by_cases hend : ∃ i, (ofJob j).halt = .endOfCommands i
  · obtain ⟨i, hi⟩ := hend
    obtain ⟨notes, hrender⟩ := render_of_end hi s
    rw [hrender, ← exists_save_eq_ok_iff]
    rcases (ofJob j).save j s with ⟨_ | _, s₁, notes'⟩
    · simp [Except.map]
    · simp [Except.map, hi, eq_comm, and_comm]
  · obtain ⟨notes, hrender⟩ := exists_render_of_broken rfl (fun i hi => hend ⟨i, hi⟩) s
    simp [hrender, hend]

/-- A still is rendered if its canvas and the summary can be written. -/
theorem exists_render_still {s₁ : Store} (hstill : j.animated = false)
    (hdepth : ∀ k ≤ j.commands.toList.length, 0 ≤ depth j.commands.toList k)
    (himage : (Export.saveCanvas j.output.val (ofJob j).machine.canvas).run s = (.ok (), s₁))
    (hsummary : ((ofJob j).saveSummary j).run s₁ = (.ok (), s')) :
    ∃ notes, render j s = (.ok ((ofJob j).rendered j), s', notes) := by
  refine exists_render_eq_ok_iff.mpr ⟨⟨_, halt_of_depth_nonneg hdepth⟩, rfl, s₁, ?_, hsummary⟩
  rw [saveImage, if_neg (by simp [hstill])]
  exact himage

/-- A render whose program comes to its end fails with the writing only. -/
theorem render_error {i : ℤ} (h : (ofJob j).halt = .endOfCommands i) {f : RenderFault}
    (hf : (render j s).1 = .error f) : (∃ e, f = .image e) ∨ ∃ e, f = .summary e := by
  obtain ⟨notes, hrender⟩ := render_of_end h s
  rw [hrender] at hf
  rcases hsave : (ofJob j).save j s with ⟨_ | _, s₁, notes'⟩ <;> rw [hsave] at hf
  · simp only [Except.map, Except.error.injEq] at hf
    rw [← hf]
    exact save_error hsave
  · simp [Except.map] at hf

end LoopPainter
