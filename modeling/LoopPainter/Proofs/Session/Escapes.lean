import LoopPainter.Proofs.Render.Failures
import LoopPainter.Session

/-!
# Drawings that fail

A session whose job is valid renders it.  Whatever comes of this, the field that shows the output is
taken back (`get?_outputField_renderJob`).  A program with a stray `]` ends the session with the
code of a failed drawing.  So does a file that cannot be written, unless a writer is obstructed:
then the failure is not foreseen and breaks out of the session.
-/

namespace LoopPainter.Session

open Brackets Drawing

variable {words : List String} {a : CommandLine.Arguments} {s s₁ : Session} {j : Job}

/-! ## The end of a render -/

theorem run_of_job (hread : CommandLine.read words = .ok a) (hsetup : s.setUp a = (.ok (), s₁))
    (hjob : jobOf a s₁.store s₁.fits = .ok j) : run words s = renderJob j s₁ := by
  simp only [run, hread, runWith, hsetup, hjob]

theorem exists_failure_eq_ok_iff (f : RenderFault) :
    (∃ message, failure f = .ok message) ↔ f.Foreseen := by
  cases f with
  | program halt => exact iff_of_true ⟨_, rfl⟩ trivial
  | image f =>
      cases f with
      | noFrames => exact iff_of_false nofun id
      | save e =>
          cases e with
          | imageNotWritten path cause => exact iff_of_true ⟨_, rfl⟩ trivial
          | _ => exact iff_of_false nofun id
  | summary e =>
      cases e with
      | bytesNotWritten path cause => exact iff_of_true ⟨_, rfl⟩ trivial
      | _ => exact iff_of_false nofun id

theorem renderJob_error {f : RenderFault} {store : Store} {notes : List Note}
    (h : render j s.store = (.error f, store, notes)) :
    (f.Foreseen → (renderJob j s).1 = .returned failed) ∧
      (¬ f.Foreseen → ∃ e, (renderJob j s).1 = .escaped e) := by
  rw [← exists_failure_eq_ok_iff]
  cases hfailure : failure f with
  | ok message =>
      have hend : (renderJob j s).1 = .returned failed := by simp only [renderJob, h, hfailure]
      exact ⟨fun _ => hend, fun hnot => absurd ⟨message, rfl⟩ hnot⟩
  | error e =>
      have hend : (renderJob j s).1 = .escaped e := by simp only [renderJob, h, hfailure]
      exact ⟨nofun, fun _ => ⟨e, hend⟩⟩

/-- The field that shows the output is taken back at every end. -/
theorem get?_outputField_renderJob (j : Job) (s : Session) :
    (renderJob j s).2.journal.fields.get? outputField = none := by
  have hpop (journal : Journal) :
      (journal.pop (some [outputField])).fields.get? outputField = none := by
    simp [Journal.pop, Journal.Fields.pop]
  unfold renderJob
  dsimp only
  split
  · exact hpop _
  · split
    · exact hpop _
    · exact hpop _

/-! ## Codes -/

/-- A session with a valid job ends with the code of a failed drawing if the program has a stray
`]`, or if the image or the summary is not written though no writer is obstructed.  Otherwise, where
a writer is obstructed, the failure breaks out. -/
theorem run_failed_or_escaped (hread : CommandLine.read words = .ok a)
    (hsetup : s.setUp a = (.ok (), s₁)) (hjob : jobOf a s₁.store s₁.fits = .ok j) :
    (run words s).2.journal.fields.get? outputField = none ∧
    ((∃ k ≤ j.commands.toList.length, depth j.commands.toList k < 0) →
      (run words s).1 = .returned failed) ∧
    ((∀ k ≤ j.commands.toList.length, 0 ≤ depth j.commands.toList k) →
      (¬ (ofJob j).Obstructed j s₁.store →
        (∃ f store notes, render j s₁.store = (.error f, store, notes)) →
        (run words s).1 = .returned failed) ∧
      ((ofJob j).Obstructed j s₁.store → ∃ e, (run words s).1 = .escaped e)) := by
  rw [run_of_job hread hsetup hjob]
  refine ⟨get?_outputField_renderJob j s₁, fun hstray => ?_, fun hdepth => ⟨?_, fun hobs => ?_⟩⟩
  -- a stray `]` is foreseen whatever the writers would do
  · obtain ⟨u, steps, last, hrun⟩ := exists_run_of_stray hstray
    have hhalt : (ofJob j).halt = .unmatchedClose u := by rw [halt_ofJob, hrun]
    obtain ⟨notes, hrender⟩ := exists_render_of_broken hhalt nofun s₁.store
    exact (renderJob_error hrender).1 trivial
  · rintro hfree ⟨f, store, notes, hrender⟩
    exact (renderJob_error hrender).1
      ((render_foreseen_iff hrender).mpr fun hboth => hfree hboth.2)
  · obtain ⟨f, store, notes, hrender⟩ := exists_render_error hdepth hobs
    exact (renderJob_error hrender).2
      fun hforeseen => (render_foreseen_iff hrender).mp hforeseen ⟨hdepth, hobs⟩

/-- A session that starts on some files. -/
def onFiles (nodes : List (Store.Place × Node)) : Session where
  store := ⟨nodes⟩
  clock := ⟨.zero, 0⟩

/-- A job with the defaults of everything that has one. -/
def plainJob (output : OutputPath) (commands : String) : Job where
  width := Job.defaultSide
  height := Job.defaultSide
  background := Job.defaultBackground
  interval := Job.defaultInterval
  output := output
  commands := commands
  summary := none

/-- A stray `]` gives the code of a failed drawing, and a file in place of the directory above the
output breaks the session off. -/
theorem run_failed_or_escaped_under_file :
    (run ["d/a.png", "]"] (onFiles [])).1 = .returned failed ∧
      ∃ e, (run ["d/a.png", "F"]
        (onFiles [(⟨.above 0, ["d"]⟩, .file (.bytes ByteArray.empty))])).1 = .escaped e := by
  constructor
  · obtain ⟨-, hstray, -⟩ := run_failed_or_escaped (s := onFiles [])
      (j := plainJob ⟨⟨.relative, ["d", "a.png"]⟩, by decide⟩ "]")
      (show CommandLine.read ["d/a.png", "]"] = .ok _ from rfl) rfl rfl
    exact hstray ⟨1, by decide, by decide⟩
  · obtain ⟨-, -, hbalanced⟩ := run_failed_or_escaped
      (s := onFiles [(⟨.above 0, ["d"]⟩, .file (.bytes ByteArray.empty))])
      (j := plainJob ⟨⟨.relative, ["d", "a.png"]⟩, by decide⟩ "F")
      (show CommandLine.read ["d/a.png", "F"] = .ok _ from rfl) rfl rfl
    refine (hbalanced (by decide)).2 (.inl (.above fun hclear => ?_))
    exact hclear.noFile ⟨.above 0, ["d"]⟩ (by decide) (.bytes ByteArray.empty) rfl

end LoopPainter.Session
