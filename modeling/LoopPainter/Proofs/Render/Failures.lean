import LoopPainter.Proofs.Render.Outcome
import LoopPainter.Proofs.Store.Obstacles

/-!
# What a failed render tells

A render fails with its program, with its image or with its summary.  The image and the summary are
given to writers, and the failure that a writer foresees is told exactly if it was not obstructed
(`image_foreseen_iff`, `summary_foreseen_iff`).  So it can be told from the store at the start
whether the failure of a render will be one that is foreseen (`render_foreseen_iff`).
-/

namespace LoopPainter

open Brackets Machine

variable {j : Job} {d : Drawing} {s s' : Store}

namespace RenderFault

/-- The failure comes from the program, or it is the one that a writer foresees. -/
def Foreseen : RenderFault → Prop
  | program _ => True
  | image (.save (.imageNotWritten _ _)) => True
  | summary (.bytesNotWritten _ _) => True
  | _ => False

end RenderFault

namespace Drawing

theorem frames_ne_nil (d : Drawing) : d.frames ≠ [] := by
  unfold frames
  split
  · simp
  · next h => simpa using h

/-- There is always an image to write. -/
theorem exists_image (j : Job) (d : Drawing) :
    ∃ w, d.image? j = some w ∧ d.saveImage j = (w.save j.output.val).adapt .save ∧
      w.accepted = true ∧ (∀ path, w.temporary path = Store.temporaryForImage path) ∧
      ∀ path cause, w.fault path cause = .imageNotWritten path.toString cause := by
  unfold image? saveImage
  split
  · cases h : d.frames with
    | nil => exact absurd h d.frames_ne_nil
    | cons first rest => exact ⟨_, rfl, rfl, rfl, fun _ => rfl, fun _ _ => rfl⟩
  · exact ⟨_, rfl, rfl, rfl, fun _ => rfl, fun _ _ => rfl⟩

theorem saveImage_error_iff {w : Store.Payload} {f : ExportFault}
    (hw : d.saveImage j = (w.save j.output.val).adapt .save) :
    (d.saveImage j).run s = (.error f, s') ↔
      ∃ e, f = .save e ∧ (w.save j.output.val).run s = (.error e, s') := by
  rw [hw, Store.run_adapt]
  rcases (w.save j.output.val).run s with ⟨e | _, s₁⟩
  · constructor
    · intro h
      cases h
      exact ⟨e, rfl, rfl⟩
    · rintro ⟨e', rfl, h⟩
      cases h
      rfl
  · constructor
    · intro h
      cases h
    · rintro ⟨e, -, h⟩
      cases h

/-- A writer of the image or, after that, of the summary fails in another way than it foresees. -/
def Obstructed (j : Job) (d : Drawing) (s : Store) : Prop :=
  s.Obstructed j.output.val (Store.temporaryForImage j.output.val) ∨
    ∃ s₁ path, (d.saveImage j).run s = (.ok (), s₁) ∧ j.summary = some path ∧
      ((d.summary j).hasLongNumber = true ∨
        s₁.Obstructed path (Store.temporaryForBytes path))

end Drawing

open Drawing

/-! ## Failures of the writers -/

theorem image_foreseen_iff {f : ExportFault} (h : (d.saveImage j).run s = (.error f, s')) :
    (RenderFault.image f).Foreseen ↔ ¬ d.Obstructed j s := by
  have hobstructed : d.Obstructed j s ↔
      s.Obstructed j.output.val (Store.temporaryForImage j.output.val) := by
    refine or_iff_left ?_
    rintro ⟨s₁, -, hok, -⟩
    cases h.symm.trans hok
  obtain ⟨w, -, hsave, hw, htemporary, hfault⟩ := exists_image j d
  obtain ⟨e, rfl, hrun⟩ := (saveImage_error_iff hsave).mp h
  have hcases := Store.Payload.error_cases hw hrun
  rw [htemporary] at hcases
  rw [hobstructed]
  rcases hcases with ⟨hfree, cause, rfl⟩ | ⟨hobs, ⟨f, rfl⟩ | ⟨f, rfl⟩⟩
  · rw [hfault]
    exact iff_of_true trivial hfree
  · exact iff_of_false id fun hfree => hfree hobs
  · exact iff_of_false id fun hfree => hfree hobs

theorem summary_foreseen_iff {s₁ : Store} {path : Path} {e : SaveFault}
    (himage : (d.saveImage j).run s = (.ok (), s₁)) (hpath : j.summary = some path)
    (h : (Yaml.saveFile path (d.summary j)).run s₁ = (.error e, s')) :
    (RenderFault.summary e).Foreseen ↔ ¬ d.Obstructed j s := by
  -- the image was written, so only the summary can have been obstructed
  have hobstructed : d.Obstructed j s ↔ (d.summary j).hasLongNumber = true ∨
      s₁.Obstructed path (Store.temporaryForBytes path) := by
    constructor
    · rintro (himage' | ⟨s₂, path', hok, hpath', hobs⟩)
      · obtain ⟨w, -, hsave, -, htemporary, -⟩ := exists_image j d
        rw [← htemporary] at himage'
        obtain ⟨e', s₂, hfail⟩ := Store.Payload.exists_error_of_obstructed himage'
        have hfail' := (saveImage_error_iff hsave).mpr ⟨e', rfl, hfail⟩
        cases himage.symm.trans hfail'
      · cases himage.symm.trans hok
        cases hpath.symm.trans hpath'
        exact hobs
    · exact fun hobs => .inr ⟨s₁, path, himage, hpath, hobs⟩
  rw [hobstructed]
  cases hlong : (d.summary j).hasLongNumber with
  | true =>
      rw [Yaml.saveFile, hlong, if_pos rfl, Store.run_throw] at h
      cases h
      exact iff_of_false id fun hfree => hfree (.inl rfl)
  | false =>
      have hw : (Store.Payload.document (d.summary j)).accepted = true := by
        rw [Store.Payload.accepted, hlong]
        rfl
      rw [or_iff_right (by simp)]
      rcases Store.Payload.error_cases hw h with
        ⟨hfree, cause, rfl⟩ | ⟨hobs, ⟨f, rfl⟩ | ⟨f, rfl⟩⟩
      · exact iff_of_true trivial hfree
      · exact iff_of_false id fun hfree => hfree hobs
      · exact iff_of_false id fun hfree => hfree hobs

theorem save_foreseen_iff {f : RenderFault} {notes : List Note}
    (h : d.save j s = (.error f, s', notes)) : f.Foreseen ↔ ¬ d.Obstructed j s := by
  unfold save at h
  split at h
  · next himage =>
      cases h
      exact image_foreseen_iff himage
  · next s₁ himage =>
      split at h
      · cases h
      · next path hpath =>
          split at h
          · next hsummary =>
              cases h
              exact summary_foreseen_iff himage hpath hsummary
          · cases h

/-- Where a writer is obstructed, something is not written. -/
theorem exists_save_error (h : d.Obstructed j s) :
    ∃ f s' notes, d.save j s = (.error f, s', notes) := by
  rcases hsave : d.save j s with ⟨f | _, s', notes⟩
  · exact ⟨f, s', notes, rfl⟩
  obtain ⟨s₁, himage, hsummary⟩ := exists_save_eq_ok_iff.mp ⟨notes, hsave⟩
  rcases h with himage' | ⟨s₂, path, hok, hpath, hobs⟩
  · obtain ⟨w, -, hw, -, htemporary, -⟩ := exists_image j d
    rw [← htemporary] at himage'
    obtain ⟨e, s₂, hfail⟩ := Store.Payload.exists_error_of_obstructed himage'
    cases himage.symm.trans ((saveImage_error_iff hw).mpr ⟨e, rfl, hfail⟩)
  · cases himage.symm.trans hok
    rw [saveSummary, hpath] at hsummary
    rcases hobs with hlong | hobs
    · dsimp only at hsummary
      rw [Yaml.saveFile, hlong, if_pos rfl] at hsummary
      cases hsummary
    · obtain ⟨e, s₃, hfail⟩ := Store.Payload.exists_error_of_obstructed
        (w := .document (d.summary j)) hobs
      cases hsummary.symm.trans hfail

/-! ## Failures of renders -/

/-- The failure of a render is foreseen exactly if the program breaks off or no writer is
obstructed. -/
theorem render_foreseen_iff {f : RenderFault} {notes : List Note}
    (h : render j s = (.error f, s', notes)) :
    f.Foreseen ↔ ¬ ((∀ k ≤ j.commands.toList.length, 0 ≤ depth j.commands.toList k) ∧
      (ofJob j).Obstructed j s) := by
  by_cases hdepth : ∀ k ≤ j.commands.toList.length, 0 ≤ depth j.commands.toList k
  · obtain ⟨notes', hrender⟩ := render_of_end (halt_of_depth_nonneg hdepth) s
    rw [hrender] at h
    rcases hsave : (ofJob j).save j s with ⟨f' | _, s₁, notes''⟩ <;> rw [hsave] at h
    · cases h
      rw [and_iff_right hdepth]
      exact save_foreseen_iff hsave
    · cases h
  · have hstray : ∃ k ≤ j.commands.toList.length, depth j.commands.toList k < 0 := by
      simpa using hdepth
    obtain ⟨u, steps, last, hrun⟩ := exists_run_of_stray hstray
    have hhalt : (ofJob j).halt = .unmatchedClose u := by rw [halt_ofJob, hrun]
    obtain ⟨notes', hrender⟩ := exists_render_of_broken hhalt nofun s
    rw [hrender] at h
    cases h
    exact iff_of_true trivial fun hboth => hdepth hboth.1

/-- Where a writer is obstructed, the render fails. -/
theorem exists_render_error
    (hdepth : ∀ k ≤ j.commands.toList.length, 0 ≤ depth j.commands.toList k)
    (h : (ofJob j).Obstructed j s) : ∃ f s' notes, render j s = (.error f, s', notes) := by
  obtain ⟨notes, hrender⟩ := render_of_end (halt_of_depth_nonneg hdepth) s
  obtain ⟨f, s', notes', hsave⟩ := exists_save_error h
  rw [hsave] at hrender
  exact ⟨f, s', notes, hrender⟩

end LoopPainter
