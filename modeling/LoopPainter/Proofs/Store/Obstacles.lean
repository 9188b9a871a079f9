import LoopPainter.Proofs.Store.Saving

/-!
# What keeps a file from being written

A writer that fails tells one of two kinds of failure: the one that it foresees (`Payload.fault`),
or another one, which comes from outside the guarded attempt.  Before the writer starts it can be
told from the store which of them it would be: the second kind exactly if the writer is
`Obstructed`.  And it can be told whether the calls to the store will all succeed (`Writable`).
-/

namespace LoopPainter.Store

variable {path t p : Path} {s s₁ s' : Store} {w : Payload} {e : SaveFault}

/-- The path fits, it leads to no directory, and not to a place on the way either, where a directory
would be made. -/
structure Free (s : Store) (way : List Place) (p : Path) : Prop where
  fits : p.Fits
  noDirectory : s.find? p.place ≠ some .directory
  apart : p.place ∉ way

/-- The calls that a writer makes of the store all succeed. -/
structure Writable (s : Store) (path t : Path) : Prop where
  clear : s.Clear path.parent
  temporary : s.Free (places path.parent) t
  target : s.Free (places path.parent) path
  named : isUnnamed path = false

/-- A writer does not get to its attempt, or could not clear up after it. -/
inductive Obstructed (s : Store) (path : Path) : Except Path.Fault Path → Prop
  | above {temporary : Except Path.Fault Path} (h : ¬ s.Clear path.parent) :
      Obstructed s path temporary
  | unnamed (e : Path.Fault) : Obstructed s path (.error e)
  | temporary {t : Path} (hnull : '\x00' ∉ t.toString.toList)
      (h : ¬ s.Free (places path.parent) t) : Obstructed s path (.ok t)

theorem obstructed_iff :
    s.Obstructed path (.ok t) ↔
      ¬ s.Clear path.parent ∨ '\x00' ∉ t.toString.toList ∧ ¬ s.Free (places path.parent) t := by
  constructor
  · rintro (hclear | _ | ⟨hnull, hfree⟩)
    · exact .inl hclear
    · exact .inr ⟨hnull, hfree⟩
  · rintro (hclear | ⟨hnull, hfree⟩)
    · exact .above hclear
    · exact .temporary hnull hfree

/-! ## The store in which the attempt starts -/

section Ensured

variable (hdir : s₁.HasDirectory path.parent) (hgrows : Grows (places path.parent) s s₁)

include hdir hgrows

theorem opens_iff_free (hparts : p.parts ≠ []) (hparent : p.parent = path.parent) :
    s₁.Opens p ↔ s.Free (places path.parent) p := by
  obtain ⟨-, hway⟩ := hasDirectory_iff.mp hdir
  have hlocate := locate_eq_ok_iff (s := s₁) hparts
  rw [hparent] at hlocate
  constructor
  · rintro ⟨hp, hp'⟩
    refine ⟨(hlocate.mp hp).1, fun hp'' => ?_, fun hmem => hp' (hway _ hmem)⟩
    exact hp' (hgrows.keepsDirectories _ hp'')
  · rintro ⟨hfits, hp, hmem⟩
    refine ⟨hlocate.mpr ⟨hfits, hway⟩, ?_⟩
    rcases hgrows p.place with heq | ⟨hmade, -⟩
    · rwa [heq]
    · exact absurd hmade hmem

theorem clogged_iff_not_free (hparts : t.parts ≠ []) (hparent : t.parent = path.parent) :
    s₁.Clogged t ↔ '\x00' ∉ t.toString.toList ∧ ¬ s.Free (places path.parent) t := by
  rw [← opens_iff_free hdir hgrows hparts hparent, Clogged, stat_eq_error_iff, stat_eq_ok_some]
  have hlocate := locate_eq_ok_iff (s := s₁) hparts
  rw [hparent] at hlocate
  obtain ⟨-, hway⟩ := hasDirectory_iff.mp hdir
  constructor
  · rintro (hlong | ⟨hplace, hfound⟩)
    · refine ⟨fun hnull => ?_, fun hopens => ?_⟩
      · rw [locate, if_pos (List.contains_iff_mem.mpr hnull)] at hlong
        cases hlong
      · rw [hopens.locate] at hlong
        cases hlong
    · exact ⟨(locate_eq_ok.mp hplace).1, fun hopens => hopens.noDirectory hfound⟩
  · rintro ⟨hnull, hopens⟩
    by_cases hfits : t.Fits
    · have hplace := hlocate.mpr ⟨hfits, hway⟩
      refine .inr ⟨hplace, ?_⟩
      by_contra hfound
      exact hopens ⟨hplace, hfound⟩
    · exact .inl (locate_eq_nameTooLong hparts hnull hfits (hparent ▸ hdir))

theorem ready_iff_writable (hbeside : Path.Beside path t) :
    s₁.Ready path t ↔ s.Writable path t := by
  have htemporary := opens_iff_free hdir hgrows hbeside.parts_ne_nil' hbeside.parent_eq
  have htarget := opens_iff_free hdir hgrows hbeside.parts_ne_nil rfl
  constructor
  · rintro ⟨ht, hp, hnamed⟩
    exact ⟨clear_of_grows hdir hgrows, htemporary.mp ht, htarget.mp hp, hnamed⟩
  · rintro ⟨-, ht, hp, hnamed⟩
    exact ⟨htemporary.mpr ht, htarget.mpr hp, hnamed⟩

end Ensured

/-! ## Failures and successes of the writers -/

namespace Payload

/-- A writer that fails tells what it foresees, or it was obstructed. -/
theorem error_cases (hw : w.accepted = true) (h : (w.save path).run s = (.error e, s')) :
    (¬ s.Obstructed path (w.temporary path) ∧ ∃ cause, e = w.fault path cause) ∨
    (s.Obstructed path (w.temporary path) ∧ ((∃ f, e = .store f) ∨ ∃ f, e = .path f)) := by
  have hsaved := w.saved path s
  rw [h] at hsaved
  cases hsaved with
  | refused _ hrefused => rw [hw] at hrefused; cases hrefused
  | barred f hclear => exact .inr ⟨.above hclear, .inl ⟨f, rfl⟩⟩
  | whole _ hdir hgrows hwhole =>
      cases hwhole with
      | unnamed f hf =>
          rw [hf]
          exact .inr ⟨.unnamed f, .inr ⟨f, rfl⟩⟩
      | guarded ht hguarded =>
          have hbeside := w.beside ht
          -- the directory is there now, so the temporary path can be judged as it was at first
          have hclogged := clogged_iff_not_free hdir hgrows hbeside.parts_ne_nil' hbeside.parent_eq
          have hclear : s.Clear path.parent := clear_of_grows hdir hgrows
          rw [ht, obstructed_iff, ← hclogged]
          cases hguarded with
          | withdrawn cause _ hfree _ =>
              exact .inl ⟨fun hor => hor.elim (fun hnot => hnot hclear) hfree, cause, rfl⟩
          | clogged f hclog _ => exact .inr ⟨.inr hclog, .inl ⟨f, rfl⟩⟩

/-- An obstructed writer fails. -/
theorem exists_error_of_obstructed (h : s.Obstructed path (w.temporary path)) :
    ∃ e s', (w.save path).run s = (.error e, s') := by
  rcases hrun : (w.save path).run s with ⟨e | _, s'⟩
  · exact ⟨e, s', rfl⟩
  have hsaved := w.saved path s
  rw [hrun] at hsaved
  cases hsaved with | whole _ hdir hgrows hwhole =>
  cases hwhole with | guarded ht hguarded =>
  cases hguarded with | replaced _ hready _ =>
  have hbeside := w.beside ht
  rw [ht, obstructed_iff, ← clogged_iff_not_free hdir hgrows hbeside.parts_ne_nil'
    hbeside.parent_eq] at h
  rcases h with hclear | hclogged
  · exact absurd (clear_of_grows hdir hgrows) hclear
  · exact absurd hclogged hready.not_clogged

/-- A writer succeeds exactly if there is a file to write and all calls to the store succeed. -/
theorem exists_ok_iff (hw : w.accepted = true) (ht : w.temporary path = .ok t) :
    (∃ s', (w.save path).run s = (.ok (), s')) ↔
      (w.content? path).isSome ∧ s.Writable path t := by
  have hbeside := w.beside ht
  have hsaved := w.saved path s
  constructor
  · rintro ⟨s', hrun⟩
    rw [hrun] at hsaved
    cases hsaved with | whole _ hdir hgrows hwhole =>
    cases hwhole with | guarded ht' hguarded =>
    -- what was ready after the directory had been made was writable before
    obtain rfl := Except.ok.inj (ht'.symm.trans ht)
    cases hguarded with | replaced hnew hready _ =>
    exact ⟨by simp [hnew], (ready_iff_writable hdir hgrows hbeside).mp hready⟩
  · rintro ⟨hnew, hwritable⟩
    rcases hrun : (w.save path).run s with ⟨e | _, s'⟩ <;> rw [hrun] at hsaved
    · cases hsaved with
      | refused _ hrefused => rw [hw] at hrefused; cases hrefused
      | barred _ hclear => exact absurd hwritable.clear hclear
      | whole _ hdir hgrows hwhole =>
          have hready := (ready_iff_writable hdir hgrows hbeside).mpr hwritable
          cases hwhole with
          | unnamed _ hf => rw [ht] at hf; cases hf
          | guarded ht' hguarded =>
              obtain rfl := Except.ok.inj (ht'.symm.trans ht)
              cases hguarded with
              | withdrawn _ hblocked =>
                  rcases hblocked with hnone | hnot
                  · rw [hnone] at hnew
                    cases hnew
                  · exact absurd hready hnot
              | clogged _ hclogged => exact absurd hclogged hready.not_clogged
    · exact ⟨s', rfl⟩

end Payload

/-! ## Pictures that are refused -/

/-- A writer whose attempt fails though nothing is in its way tells the cause. -/
theorem run_guarded_of_tried {a : ExceptT WriteCause (StateM Store) Unit} {cause : WriteCause}
    (fault : WriteCause → SaveFault) (hrun : a.run s = (.error cause, s₁)) (h : Tried t s s₁)
    (hfree : ¬ s.Clogged t) : ∃ s', (guarded t fault a).run s = (.error (fault cause), s') := by
  have hlift : (ExceptT.lift a.run : SaveAction (Except WriteCause Unit)).run s =
      (.ok (a.run s).1, (a.run s).2) := rfl
  rw [guarded, run_bind, hlift, hrun]
  obtain ⟨r, s', hdiscard, -⟩ := h.discard
  cases r with
  | ok _ =>
      dsimp only
      rw [run_bind_ok (run_widen_ok hdiscard SaveFault.store)]
      exact ⟨s', rfl⟩
  | error f =>
      exact absurd (h.clogged_iff.mp (exists_discard_error_iff.mp ⟨f, s', hdiscard⟩)) hfree

/-- Pictures that the format does not take are refused, and the complaint says so. -/
theorem run_saveImage_of_encode_error {options : ImageOptions} {first : Picture}
    {rest : List Picture} {format : ImageFormat} {fault : ImageFault}
    (ht : temporaryForImage path = .ok t)
    (hformat : ImageFile.formatFor options path = .ok format)
    (hencode : ImageFile.encode format options first rest = .error fault)
    (h : s.Writable path t) :
    ∃ s', (saveImage path options first rest).run s =
      (.error (.imageNotWritten path.toString (.image fault)), s') := by
  have hbeside := beside_temporaryForImage ht
  obtain ⟨s₁, hensure⟩ := exists_ensureDirectory_iff.mpr h.clear
  have hensured := ensured_ensureDirectory path.parent s
  rw [hensure] at hensured
  have hready := (ready_iff_writable (hensured.2 rfl) hensured.1 hbeside).mpr h
  rw [saveImage, run_bind_ok (run_widen_ok hensure SaveFault.store), replaceImage, ht, ofPath,
    pure_bind]
  rcases (Tried.refl t s₁).writeFile_cases hbeside.parts_ne_nil' (.bytes ByteArray.empty) with
    ⟨-, s₂, hwrite, htried, -⟩ | ⟨hopens, -⟩
  · refine run_guarded_of_tried (.imageNotWritten path.toString) ?_ htried hready.not_clogged
    rw [formatFor_temporary options ht, hformat, replaceImage.ofImage, pure_bind,
      run_bind_ok (run_widen_ok hwrite causeOf), hencode]
    rfl
  · exact absurd hready.temporary hopens

end LoopPainter.Store
