import LoopPainter.Proofs.Store.Clear

/-!
# Filling a temporary file

A writer fills a temporary file beside its target and moves it onto the target.  Until the move only
the entry at the temporary path changes (`Tried`), and the move itself replaces the target at once
(`Replaced`).  The attempt succeeds exactly if there is something to write and the store is ready
for it (`Ready`): neither path leads to a directory, and the target has a name of its own.
-/

namespace LoopPainter.Store

variable {path t : Path} {s s₁ s' : Store} {c : Content} {new : Option Content}

/-! ## Files that can be opened -/

/-- A file can be put at the path: it leads somewhere, and not to a directory. -/
structure Opens (s : Store) (path : Path) : Prop where
  locate : s.locate path = .ok path.place
  noDirectory : s.find? path.place ≠ some .directory

theorem Opens.content_insert (h : s.Opens path) (c : Content) :
    (s.insert path.place (.file c)).content path = .ok c := by
  refine content_eq_ok.mpr ⟨locate_mono (keepsDirectories_insert h.noDirectory _) h.locate, ?_⟩
  exact find?_insert_self h.noDirectory _

theorem opens_of_content (h : s.content path = .ok c) : s.Opens path := by
  obtain ⟨hlocate, hfind⟩ := content_eq_ok.mp h
  exact ⟨hlocate, by simp [hfind]⟩

/-- Both files of an attempt can be opened, and the target is no `..` and no root. -/
structure Ready (s : Store) (path t : Path) : Prop where
  temporary : s.Opens t
  target : s.Opens path
  named : isUnnamed path = false

/-! ## Attempts -/

/-- Only the entry at the temporary path may have changed, and if it has, there is a file that the
path leads to. -/
structure Tried (t : Path) (s s' : Store) : Prop where
  others : ∀ q, q ≠ t.place → s'.find? q = s.find? q
  temporary : s'.find? t.place = s.find? t.place ∨ ∃ c, s'.content t = .ok c
  keepsDirectories : KeepsDirectories s s'

theorem Tried.refl (t : Path) (s : Store) : Tried t s s :=
  ⟨fun _ _ => rfl, .inl rfl, .refl s⟩

theorem Tried.opens_iff (h : Tried t s s₁) (hparts : t.parts ≠ []) : s₁.Opens t ↔ s.Opens t := by
  constructor
  · intro hopens
    obtain ⟨hfits, hway⟩ := (locate_eq_ok_iff hparts).mp hopens.locate
    refine ⟨(locate_eq_ok_iff hparts).mpr ⟨hfits, fun q hq => ?_⟩, fun hdir => ?_⟩
    · -- the way was the same before, since the temporary file is not on it
      have hne : q ≠ t.place := by
        rintro rfl
        exact hopens.noDirectory (hway _ hq)
      rw [← h.others q hne]
      exact hway q hq
    · exact hopens.noDirectory (h.keepsDirectories _ hdir)
  · intro hopens
    refine ⟨locate_mono h.keepsDirectories hopens.locate, ?_⟩
    rcases h.temporary with heq | ⟨c, hcontent⟩
    · rw [heq]
      exact hopens.noDirectory
    · exact (opens_of_content hcontent).noDirectory

theorem Tried.ready_iff (h : Tried t s s₁) (hbeside : Path.Beside path t) :
    s₁.Ready path t ↔ s.Ready path t := by
  have htemporary := h.opens_iff hbeside.parts_ne_nil'
  have hplace := h.others path.place hbeside.place_ne
  constructor
  · rintro ⟨hopens, htarget, hnamed⟩
    have hopens' := htemporary.mp hopens
    obtain ⟨hfits, -⟩ := (locate_eq_ok_iff hbeside.parts_ne_nil).mp htarget.locate
    obtain ⟨-, hway⟩ := (locate_eq_ok_iff hbeside.parts_ne_nil').mp hopens'.locate
    rw [hbeside.parent_eq] at hway
    exact ⟨hopens', ⟨(locate_eq_ok_iff hbeside.parts_ne_nil).mpr ⟨hfits, hway⟩,
      hplace ▸ htarget.noDirectory⟩, hnamed⟩
  · rintro ⟨hopens, htarget, hnamed⟩
    exact ⟨htemporary.mpr hopens, ⟨locate_mono h.keepsDirectories htarget.locate,
      hplace ▸ htarget.noDirectory⟩, hnamed⟩

theorem Tried.writeFile_cases (h : Tried t s s₁) (hparts : t.parts ≠ []) (c : Content) :
    (s.Opens t ∧ ∃ s', (writeFile t c).run s₁ = (.ok (), s') ∧ Tried t s s' ∧
      s'.content t = .ok c) ∨
    (¬ s.Opens t ∧ ∃ f, (writeFile t c).run s₁ = (.error f, s₁)) := by
  rcases Store.writeFile_cases t c s₁ with ⟨hlocate, hdir, hrun⟩ | ⟨f, hrun⟩
  · have hopens : s₁.Opens t := ⟨hlocate, hdir⟩
    have hcontent := hopens.content_insert c
    refine .inl ⟨(h.opens_iff hparts).mp hopens, _, hrun, ⟨?_, .inr ⟨c, hcontent⟩, ?_⟩, hcontent⟩
    · intro q hq
      rw [find?_insert_of_ne hdir _ hq, h.others q hq]
    · exact h.keepsDirectories.trans (keepsDirectories_insert hdir _)
  · refine .inr ⟨fun hopens => ?_, f, hrun⟩
    have hopens' := (h.opens_iff hparts).mpr hopens
    rw [run_writeFile hopens'.locate hopens'.noDirectory] at hrun
    cases hrun

/-- The file at the path is the new one, and the temporary file is gone. -/
structure Replaced (path t : Path) (c : Content) (s s' : Store) : Prop where
  content : s'.content path = .ok c
  gone : s'.find? t.place = none
  others : ∀ q, q ≠ path.place → q ≠ t.place → s'.find? q = s.find? q
  keepsDirectories : KeepsDirectories s s'

theorem Tried.moveFile_cases (h : Tried t s s₁) (hbeside : Path.Beside path t)
    (hcontent : s₁.content t = .ok c) :
    (s.Ready path t ∧ ∃ s', (moveFile t path).run s₁ = (.ok (), s') ∧ Replaced path t c s s') ∨
    (¬ s.Ready path t ∧ ∃ f, (moveFile t path).run s₁ = (.error f, s₁)) := by
  rcases Store.moveFile_cases t path s₁ with
    ⟨c', hcontent', hnamed, hlocate, hdir, hrun⟩ | ⟨f, hrun⟩
  · obtain rfl : c' = c := Except.ok.inj (hcontent'.symm.trans hcontent)
    have hfile := (content_eq_ok.mp hcontent).2
    have htemporary : s₁.find? t.place ≠ some .directory := by simp [hfile]
    have herase := keepsDirectories_erase htemporary
    have hne := hbeside.place_ne
    -- the target is looked at after its file was taken from the other place, so they must differ
    have hopens : (s₁.erase t.place).Opens path :=
      ⟨locate_mono herase hlocate, by rwa [find?_erase_of_ne htemporary hne]⟩
    have hready := (h.ready_iff hbeside).mp ⟨opens_of_content hcontent, ⟨hlocate, hdir⟩, hnamed⟩
    refine .inl ⟨hready, _, hrun, hopens.content_insert c', ?_, ?_, ?_⟩
    · rw [find?_insert_of_ne hopens.noDirectory _ hne.symm, find?_erase_self htemporary]
    · intro q hq hqt
      rw [find?_insert_of_ne hopens.noDirectory _ hq, find?_erase_of_ne htemporary hqt,
        h.others q hqt]
    · exact (h.keepsDirectories.trans herase).trans (keepsDirectories_insert hopens.noDirectory _)
  · refine .inr ⟨fun hready => ?_, f, hrun⟩
    obtain ⟨-, htarget, hnamed⟩ := (h.ready_iff hbeside).mpr hready
    have hname : isUnnamed t = false := by
      simp [isUnnamed, hbeside.parts_ne_nil', hbeside.name_ne_up]
    rw [run_moveFile hname hcontent hnamed htarget.locate htarget.noDirectory] at hrun
    cases hrun

/-- What is known after an attempt to put a new content at the path, from what it gave. -/
inductive Attempted (path t : Path) (new : Option Content) (s : Store) :
    Except WriteCause Unit × Store → Prop
  | replaced {c : Content} {s' : Store} (hnew : new = some c) (hready : s.Ready path t)
      (h : Replaced path t c s s') : Attempted path t new s (.ok (), s')
  | tried {s' : Store} (e : WriteCause) (hready : new = none ∨ ¬ s.Ready path t)
      (h : Tried t s s') : Attempted path t new s (.error e, s')

/-- The end of every attempt: the whole content is written, and then it is moved. -/
theorem Tried.attempted (h : Tried t s s₁) (hbeside : Path.Beside path t) (c : Content) :
    Attempted path t (some c) s ((do
      widen causeOf (writeFile t c)
      widen causeOf (moveFile t path)).run s₁) := by
  rcases h.writeFile_cases hbeside.parts_ne_nil' c with
    ⟨-, s₂, hwrite, h₂, hcontent⟩ | ⟨hopens, f, hwrite⟩
  · rw [run_bind_ok (run_widen_ok hwrite causeOf)]
    rcases h₂.moveFile_cases hbeside hcontent with
      ⟨hready, s₃, hmove, hreplaced⟩ | ⟨hready, f, hmove⟩
    · rw [run_widen_ok hmove]
      exact .replaced rfl hready hreplaced
    · rw [run_widen_error hmove]
      exact .tried _ (.inr hready) h₂
  · rw [run_bind_error (run_widen_error hwrite causeOf)]
    exact .tried _ (.inr fun hready => hopens hready.temporary) h

/-! ## The attempts of the writers -/

theorem attempted_bytes (h : temporaryForBytes path = .ok t) (data : ByteArray) (s : Store) :
    Attempted path t (some (.bytes data)) s ((do
      widen causeOf (writeFile t (.bytes data))
      widen causeOf (moveFile t path)).run s) :=
  (Tried.refl t s).attempted (beside_temporaryForBytes h) _

/-- The image file at a path that is made of pictures. -/
def imageAt? (path : Path) (options : ImageOptions) (first : Picture) (rest : List Picture) :
    Option Content :=
  match ImageFile.formatFor options path with
  | .ok format => (ImageFile.encode format options first rest).toOption.map .image
  | .error _ => none

theorem attempted_image (h : temporaryForImage path = .ok t) (options : ImageOptions)
    (first : Picture) (rest : List Picture) (s : Store) :
    Attempted path t (imageAt? path options first rest) s ((do
      let format ← replaceImage.ofImage (ImageFile.formatFor options t)
      widen causeOf (writeFile t (.bytes ByteArray.empty))
      let file ← replaceImage.ofImage (ImageFile.encode format options first rest)
      widen causeOf (writeFile t (.image file))
      widen causeOf (moveFile t path)).run s) := by
  have hbeside := beside_temporaryForImage h
  rw [formatFor_temporary options h, imageAt?]
  cases ImageFile.formatFor options path with
  | error e => exact .tried _ (.inl rfl) (.refl t s)
  | ok format =>
      rw [replaceImage.ofImage, pure_bind]
      dsimp only
      rcases (Tried.refl t s).writeFile_cases hbeside.parts_ne_nil' (.bytes ByteArray.empty) with
        ⟨-, s₁, hwrite, h₁, -⟩ | ⟨hopens, f, hwrite⟩
      · rw [run_bind_ok (run_widen_ok hwrite causeOf)]
        cases ImageFile.encode format options first rest with
        | error e => exact .tried _ (.inl rfl) h₁
        | ok file =>
            rw [replaceImage.ofImage, pure_bind]
            exact h₁.attempted hbeside (.image file)
      · rw [run_bind_error (run_widen_error hwrite causeOf)]
        exact .tried _ (.inr fun hready => hopens hready.temporary) (.refl t s)

end LoopPainter.Store
