import LoopPainter.Proofs.Store.Filling
import LoopPainter.Yaml.File

/-!
# Writing files whole

Every writer makes the directories above its target, fills a temporary file beside it and moves
that file onto it.  If the attempt fails, what it left at the temporary path is taken away again
(`Withdrawn`), unless nothing can be taken away there (`Clogged`).

Directories that were made on the way stay in any case.  A path with `..` can lead to one of them,
and then even the target of a failed attempt is there afterwards; without `..` it is as it was.
-/

namespace LoopPainter.Store

variable {path t : Path} {s s₁ s' : Store} {c : Content} {new : Option Content}

/-! ## Taking back what failed -/

/-- Nothing can be taken away at the path: the path is too long, or it leads to a directory. -/
def Clogged (s : Store) (t : Path) : Prop :=
  (∃ f, s.stat t = .error f) ∨ s.stat t = .ok (some .directory)

theorem exists_discard_error_iff :
    (∃ f s', (discard t).run s = (.error f, s')) ↔ s.Clogged t := by
  cases hstat : s.stat t with
  | error f =>
      refine iff_of_true ⟨f, s, ?_⟩ (.inl ⟨f, hstat⟩)
      simp [discard, run_pathExists, hstat]
  | ok n =>
      cases n with
      | none =>
          have hrun : (discard t).run s = (.ok (), s) := by simp [discard, run_pathExists, hstat]
          refine iff_of_false ?_ (by simp [Clogged, hstat])
          rintro ⟨f, s', hfail⟩
          cases hrun.symm.trans hfail
      | some n =>
          obtain ⟨hlocate, hfind⟩ := stat_eq_ok_some.mp hstat
          have hreach := reach_of_locate hlocate
          rw [hfind] at hreach
          cases n with
          -- a directory is not removed as a file is
          | directory =>
              refine iff_of_true ⟨⟨.isDirectory, t.toString⟩, s, ?_⟩ (.inr hstat)
              simp [discard, run_pathExists, hstat, removeFile, hreach]
          | file c =>
              have hrun : (discard t).run s = (.ok (), s.erase t.place) := by
                simp [discard, run_pathExists, hstat, removeFile, hreach]
              refine iff_of_false ?_ (by simp [Clogged, hstat])
              rintro ⟨f, s', hfail⟩
              cases hrun.symm.trans hfail

theorem stat_eq_error_iff : (∃ f, s.stat t = .error f) ↔ s.locate t = .error .nameTooLong := by
  unfold stat lookup
  cases hlocate : s.locate t with
  | ok p => simp [Except.map]
  | error c => cases c <;> simp [Except.map]

theorem Ready.not_clogged (h : s.Ready path t) : ¬ s.Clogged t := by
  rintro (hlong | hdir)
  · rw [stat_eq_error_iff, h.temporary.locate] at hlong
    cases hlong
  · exact h.temporary.noDirectory (stat_eq_ok_some.mp hdir).2

/-- Whether a path is too long depends on the directories only. -/
theorem locate_eq_nameTooLong_mono (hkeep : KeepsDirectories s s')
    (h : s.locate t = .error .nameTooLong) : s'.locate t = .error .nameTooLong := by
  -- a name is found too long in a directory, and this directory is still there
  have hwalk (p : Place) (names : List String) (h : s.walk p names = .error .nameTooLong) :
      s'.walk p names = .error .nameTooLong := by
    induction names generalizing p with
    | nil => cases h
    | cons name names ih =>
        cases hfind : s.find? p with
        | none => simp [walk, hfind] at h
        | some n =>
            cases n with
            | file c => simp [walk, hfind] at h
            | directory =>
                rw [walk, hfind] at h
                rw [walk, hkeep p hfind]
                dsimp only at h ⊢
                split
                · next hup => exact ih _ (by rwa [if_pos hup] at h)
                · next hup =>
                    split
                    · rfl
                    · next hshort => exact ih _ (by rwa [if_neg hup, if_neg hshort] at h)
  unfold locate at h ⊢
  dsimp only at h ⊢
  split
  · next hnull =>
      rw [if_pos hnull] at h
      cases h
  · next hnull =>
      split
      · rfl
      · next hshort =>
          rw [if_neg hnull, if_neg hshort] at h
          exact hwalk _ _ h

/-- An attempt neither makes a directory nor removes one. -/
theorem Tried.keepsDirectories' (h : Tried t s s₁) : KeepsDirectories s₁ s := by
  intro q hq
  by_cases hplace : q = t.place
  · subst hplace
    rcases h.temporary with heq | ⟨c, hcontent⟩
    · rw [← heq, hq]
    · rw [(content_eq_ok.mp hcontent).2] at hq
      cases hq
  · rw [← h.others q hplace, hq]

theorem Tried.clogged_iff (h : Tried t s s₁) : s₁.Clogged t ↔ s.Clogged t := by
  have hmono {s s' : Store} (hkeep : KeepsDirectories s s') (hclogged : s.Clogged t) :
      s'.Clogged t := by
    rcases hclogged with hlong | hdir
    · rw [stat_eq_error_iff] at hlong
      exact .inl (stat_eq_error_iff.mpr (locate_eq_nameTooLong_mono hkeep hlong))
    · obtain ⟨hlocate, hfind⟩ := stat_eq_ok_some.mp hdir
      exact .inr (stat_eq_ok_some.mpr ⟨locate_mono hkeep hlocate, hkeep _ hfind⟩)
  exact ⟨hmono h.keepsDirectories', hmono h.keepsDirectories⟩

/-- Nothing has changed, except that a temporary file may be gone. -/
structure Withdrawn (t : Path) (s s' : Store) : Prop where
  others : ∀ q, q ≠ t.place → s'.find? q = s.find? q
  temporary : s'.find? t.place = none ∨ s'.find? t.place = s.find? t.place

/-- The discarding may fail, but then there was no file to discard. -/
theorem Tried.discard (h : Tried t s s₁) :
    ∃ r s', (discard t).run s₁ = (r, s') ∧ Withdrawn t s s' := by
  rcases discard_cases t s₁ with ⟨c, hcontent, hrun⟩ | ⟨hnone, r, hrun⟩
  · have hdir : s₁.find? t.place ≠ some .directory := by simp [(content_eq_ok.mp hcontent).2]
    refine ⟨_, _, hrun, ?_, .inl ?_⟩
    · intro q hq
      rw [find?_erase_of_ne hdir hq, h.others q hq]
    · exact find?_erase_self hdir
  · refine ⟨r, s₁, hrun, h.others, .inr ?_⟩
    exact h.temporary.resolve_right fun ⟨c, hcontent⟩ => hnone c hcontent

/-- What is known after a guarded attempt, from what it gave. -/
inductive Guarded (path t : Path) (new : Option Content) (fault : WriteCause → SaveFault)
    (s : Store) : Except SaveFault Unit × Store → Prop
  | replaced {c : Content} {s' : Store} (hnew : new = some c) (hready : s.Ready path t)
      (h : Replaced path t c s s') : Guarded path t new fault s (.ok (), s')
  | withdrawn {s' : Store} (e : WriteCause) (hready : new = none ∨ ¬ s.Ready path t)
      (hfree : ¬ s.Clogged t) (h : Withdrawn t s s') :
      Guarded path t new fault s (.error (fault e), s')
  | clogged {s' : Store} (f : Fault) (hclogged : s.Clogged t) (h : Withdrawn t s s') :
      Guarded path t new fault s (.error (.store f), s')

theorem guarded_of_attempted {a : ExceptT WriteCause (StateM Store) Unit}
    (fault : WriteCause → SaveFault) (h : Attempted path t new s (a.run s)) :
    Guarded path t new fault s ((guarded t fault a).run s) := by
  have hlift : (ExceptT.lift a.run : SaveAction (Except WriteCause Unit)).run s =
      (.ok (a.run s).1, (a.run s).2) := rfl
  rw [guarded, run_bind, hlift]
  rcases hrun : a.run s with ⟨_ | _, s₁⟩ <;> rw [hrun] at h
  · cases h with | tried _ hready htried =>
    obtain ⟨r, s', hdiscard, hwithdrawn⟩ := htried.discard
    have herror := (exists_discard_error_iff (s := s₁) (t := t)).trans htried.clogged_iff
    dsimp only
    -- whether the removal of the temporary file fails as well decides which failure is told
    cases r with
    | ok _ =>
        rw [run_bind_ok (run_widen_ok hdiscard SaveFault.store)]
        refine .withdrawn _ hready (fun hclogged => ?_) hwithdrawn
        obtain ⟨f, s'', hfail⟩ := herror.mpr hclogged
        rw [hdiscard] at hfail
        cases hfail
    | error f =>
        rw [run_bind_error (run_widen_error hdiscard SaveFault.store)]
        exact .clogged f (herror.mp ⟨f, s', hdiscard⟩) hwithdrawn
  · cases h with | replaced hnew hready hreplaced =>
    exact .replaced hnew hready hreplaced

/-! ## The writers -/

/-- What is known after the temporary path was told and the rest was attempted, from what this
gave. -/
inductive Whole (path : Path) (temporary : Except Path.Fault Path) (new : Option Content)
    (fault : WriteCause → SaveFault) (s : Store) : Except SaveFault Unit × Store → Prop
  | guarded {t : Path} {r : Except SaveFault Unit × Store} (ht : temporary = .ok t)
      (h : Guarded path t new fault s r) : Whole path temporary new fault s r
  | unnamed (e : Path.Fault) (ht : temporary = .error e) :
      Whole path temporary new fault s (.error (.path e), s)

theorem whole_of_attempted {temporary : Except Path.Fault Path} {fault : WriteCause → SaveFault}
    {a : Path → ExceptT WriteCause (StateM Store) Unit}
    (h : ∀ t, temporary = .ok t → Attempted path t new s ((a t).run s)) :
    Whole path temporary new fault s
      ((ofPath temporary >>= fun t => guarded t fault (a t)).run s) := by
  cases temporary with
  | error e => exact .unnamed e rfl
  | ok t =>
      rw [ofPath, pure_bind]
      exact .guarded rfl (guarded_of_attempted fault (h t rfl))

theorem whole_bytes (path : Path) (data : ByteArray) (s : Store) :
    Whole path (temporaryForBytes path) (some (.bytes data)) (.bytesNotWritten path.toString) s
      ((do
        let t ← ofPath (temporaryForBytes path)
        guarded t (.bytesNotWritten path.toString) do
          widen causeOf (writeFile t (.bytes data))
          widen causeOf (moveFile t path)).run s) :=
  whole_of_attempted fun _ h => attempted_bytes h data s

theorem whole_replaceImage (path : Path) (options : ImageOptions) (first : Picture)
    (rest : List Picture) (s : Store) :
    Whole path (temporaryForImage path) (imageAt? path options first rest)
      (.imageNotWritten path.toString) s ((replaceImage path options first rest).run s) :=
  whole_of_attempted fun _ h => attempted_image h options first rest s

theorem run_toPicture (x : Samples) (s : Store) :
    (saveSamples.toPicture x).run s =
      (match x.toPicture? with
        | some p => .ok p
        | none => .error .notAPicture, s) := by
  rw [saveSamples.toPicture]
  cases x.toPicture? <;> rfl

theorem run_mapM_toPicture (xs : List Samples) (s : Store) :
    (xs.mapM saveSamples.toPicture).run s =
      (match xs.mapM Samples.toPicture? with
        | some ps => .ok ps
        | none => .error .notAPicture, s) := by
  induction xs with
  | nil => rfl
  | cons x xs ih =>
      rw [List.mapM_cons, List.mapM_cons, run_bind, run_toPicture]
      cases x.toPicture? with
      | none => rfl
      | some p =>
          dsimp only
          rw [run_bind, ih]
          cases xs.mapM Samples.toPicture? <;> rfl

/-- What a writer is given to write. -/
inductive Payload where
  | bytes (data : ByteArray)
  | document (d : Datum)
  | pictures (options : ImageOptions) (first : Picture) (rest : List Picture)
  | samples (options : ImageOptions) (first : Samples) (rest : List Samples)

namespace Payload

/-- Write it whole. -/
def save (path : Path) : Payload → SaveAction Unit
  | bytes data => saveBytes path data
  | document d => Yaml.saveFile path d
  | pictures options first rest => saveImage path options first rest
  | samples options first rest => saveSamples path options first rest

/-- The temporary path under which it is written. -/
def temporary (path : Path) : Payload → Except Path.Fault Path
  | bytes _ | document _ => temporaryForBytes path
  | pictures .. | samples .. => temporaryForImage path

/-- The content that it becomes, if it can be put into a file at the path. -/
def content? (path : Path) : Payload → Option Content
  | bytes data => some (.bytes data)
  | document d => some (.bytes (String.ofList (Yaml.dump d)).toUTF8)
  | pictures options first rest => imageAt? path options first rest
  | samples options first rest =>
    match first.toPicture?, rest.mapM Samples.toPicture? with
    | some picture, some others => imageAt? path options picture others
    | _, _ => none

/-- The complaint about an attempt that failed. -/
def fault (path : Path) : Payload → WriteCause → SaveFault
  | bytes _ | document _ => .bytesNotWritten path.toString
  | pictures .. | samples .. => .imageNotWritten path.toString

/-- It has a written form at all: no number is too long, and samples have the shape of a
picture. -/
def accepted : Payload → Bool
  | bytes _ | pictures .. => true
  | document d => !d.hasLongNumber
  | samples _ first rest => first.toPicture?.isSome && (rest.mapM Samples.toPicture?).isSome

theorem beside (w : Payload) (h : w.temporary path = .ok t) : Path.Beside path t := by
  cases w with
  | bytes data => exact beside_temporaryForBytes h
  | document d => exact beside_temporaryForBytes h
  | pictures options first rest => exact beside_temporaryForImage h
  | samples options first rest => exact beside_temporaryForImage h

theorem save_document {d : Datum} (h : d.hasLongNumber = false) (path : Path) :
    (document d).save path = saveBytes path (String.ofList (Yaml.dump d)).toUTF8 := by
  rw [save, Yaml.saveFile, h]
  rfl

/-- What is known after a writer has run, from what it gave. -/
inductive Saved (w : Payload) (path : Path) (s : Store) : Except SaveFault Unit × Store → Prop
  | refused {s' : Store} (e : SaveFault) (hw : w.accepted = false)
      (hgrows : Grows (places path.parent) s s') : Saved w path s (.error e, s')
  | barred {s' : Store} (f : Fault) (hclear : ¬ s.Clear path.parent)
      (hgrows : Grows (places path.parent) s s') : Saved w path s (.error (.store f), s')
  | whole {s₁ : Store} {r : Except SaveFault Unit × Store} (hw : w.accepted = true)
      (hdir : s₁.HasDirectory path.parent) (hgrows : Grows (places path.parent) s s₁)
      (h : Whole path (w.temporary path) (w.content? path) (w.fault path) s₁ r) :
      Saved w path s r

/-- Every writer makes sure of the directory above its target first. -/
theorem saved_of_ensured {w : Payload} {a : SaveAction Unit}
    (h : ∀ s₁, s₁.HasDirectory path.parent → Grows (places path.parent) s s₁ →
      Saved w path s (a.run s₁)) :
    Saved w path s ((do
      widen .store (ensureDirectory path.parent)
      a : SaveAction Unit).run s) := by
  have hensured := ensured_ensureDirectory path.parent s
  rcases hrun : (ensureDirectory path.parent).run s with ⟨f | _, s₁⟩ <;> rw [hrun] at hensured
  · rw [run_bind_error (run_widen_error hrun SaveFault.store)]
    refine .barred f (fun hclear => ?_) hensured.1
    obtain ⟨s₂, hok⟩ := exists_ensureDirectory_iff.mpr hclear
    rw [hrun] at hok
    cases hok
  · rw [run_bind_ok (run_widen_ok hrun SaveFault.store)]
    exact h s₁ (hensured.2 rfl) hensured.1

theorem saved (w : Payload) (path : Path) (s : Store) : Saved w path s ((w.save path).run s) := by
  cases w with
  | bytes data =>
      exact saved_of_ensured fun s₁ hdir hgrows => .whole rfl hdir hgrows (whole_bytes path data s₁)
  | document d =>
      cases hlong : d.hasLongNumber with
      | true =>
          rw [save, Yaml.saveFile, hlong]
          exact .refused _ (by rw [accepted, hlong]; rfl) (.refl _ s)
      | false =>
          rw [save_document hlong]
          exact saved_of_ensured fun s₁ hdir hgrows =>
            .whole (by rw [accepted, hlong]; rfl) hdir hgrows (whole_bytes path _ s₁)
  | pictures options first rest =>
      exact saved_of_ensured fun s₁ hdir hgrows =>
        .whole rfl hdir hgrows (whole_replaceImage path options first rest s₁)
  -- samples that are no picture are refused after the way to the target was made
  | samples options first rest =>
      refine saved_of_ensured fun s₁ hdir hgrows => ?_
      rw [run_bind, run_toPicture]
      cases hfirst : first.toPicture? with
      | none => exact .refused _ (by simp [accepted, hfirst]) hgrows
      | some picture =>
          dsimp only
          rw [run_bind, run_mapM_toPicture]
          cases hrest : rest.mapM Samples.toPicture? with
          | none => exact .refused _ (by simp [accepted, hrest]) hgrows
          | some others =>
              refine .whole (by simp [accepted, hfirst, hrest]) hdir hgrows ?_
              simp only [temporary, content?, hfirst, hrest]
              exact whole_replaceImage path options picture others s₁

theorem saved_of_run {w : Payload} (h : (w.save path).run s = (.ok (), s')) :
    ∃ t c s₁, w.temporary path = .ok t ∧ w.content? path = some c ∧
      Grows (places path.parent) s s₁ ∧ Replaced path t c s₁ s' := by
  have hsaved := w.saved path s
  rw [h] at hsaved
  cases hsaved with | whole _ _ hgrows hwhole =>
  cases hwhole with | guarded ht hguarded =>
  cases hguarded with | replaced hnew _ hreplaced =>
  exact ⟨_, _, _, ht, hnew, hgrows, hreplaced⟩

theorem withdrawn_of_run {w : Payload} {e : SaveFault}
    (h : (w.save path).run s = (.error e, s')) :
    ∃ s₁, Grows (places path.parent) s s₁ ∧
      (s' = s₁ ∨ ∃ t, w.temporary path = .ok t ∧ Withdrawn t s₁ s') := by
  have hsaved := w.saved path s
  rw [h] at hsaved
  cases hsaved with
  | refused _ _ hgrows => exact ⟨s', hgrows, .inl rfl⟩
  | barred _ _ hgrows => exact ⟨s', hgrows, .inl rfl⟩
  | whole _ _ hgrows hwhole =>
      cases hwhole with
      | unnamed _ _ => exact ⟨s', hgrows, .inl rfl⟩
      | guarded ht hguarded =>
          cases hguarded with
          | withdrawn _ _ _ hwithdrawn => exact ⟨_, hgrows, .inr ⟨_, ht, hwithdrawn⟩⟩
          | clogged _ _ hwithdrawn => exact ⟨_, hgrows, .inr ⟨_, ht, hwithdrawn⟩⟩

/-- A writer leaves every file alone that is neither its target nor its temporary file. -/
theorem content_of_run {w : Payload} {p : Path} (h : (w.save path).run s = (.ok (), s'))
    (hcontent : s.content p = .ok c) (hne : p.place ≠ path.place)
    (hne' : ∀ t, w.temporary path = .ok t → p.place ≠ t.place) : s'.content p = .ok c := by
  obtain ⟨t, c', s₁, ht, -, hgrows, hreplaced⟩ := saved_of_run h
  obtain ⟨hlocate, hfind⟩ := content_eq_ok.mp hcontent
  have hkeep := hgrows.keepsDirectories.trans hreplaced.keepsDirectories
  have hfind₁ : s₁.find? p.place = some (.file c) := by
    rcases hgrows p.place with hkept | ⟨-, hnone, -⟩
    · rw [hkept, hfind]
    · -- a directory is only made where nothing was
      rw [hfind] at hnone
      cases hnone
  refine content_eq_ok.mpr ⟨locate_mono hkeep hlocate, ?_⟩
  rw [hreplaced.others _ hne (hne' t ht), hfind₁]

end Payload

/-! ## All or nothing -/

/-- What the entry at a place was before, or a directory that was made, stays so if the entry does
not change any more. -/
theorem Grows.of_eq {way : List Place} {q : Place} (h : Grows way s s₁)
    (heq : s'.find? q = s₁.find? q) : s'.find? q = s.find? q ∨ Made way s s' q := by
  rcases h q with hkept | ⟨hway, hnone, hmade⟩
  · exact .inl (heq.trans hkept)
  · exact .inr ⟨hway, hnone, heq.trans hmade⟩

/-- Without `..` a path does not lead to a place on its own way. -/
theorem place_not_mem_places_parent (hup : ".." ∉ path.parts) (hparts : path.parts ≠ []) :
    path.place ∉ places path.parent := by
  intro hmem
  have horigin : path.origin.names = [] := by
    unfold Path.origin
    split <;> rfl
  -- every place on the way has fewer names than the path
  have hplace : path.place.names = path.parts := by
    rw [Path.place, Place.follow_of_not_mem _ hup, horigin, List.nil_append]
  have hle : path.place.names.length ≤ path.origin.names.length + path.parent.parts.length :=
    length_le_of_mem_trail hmem
  have hlength := congrArg List.length (Path.parts_eq hparts)
  rw [hplace, horigin] at hle
  simp only [List.length_append, List.length_nil, List.length_singleton] at hle hlength
  omega

/-- So it does not lead to a directory that was made for it. -/
theorem not_made_place (s s' : Store) (hup : ".." ∉ path.parts) :
    ¬ Made (places path.parent) s s' path.place := by
  rintro ⟨hmem, hnone, -⟩
  by_cases hparts : path.parts = []
  · have hdir : s.find? path.place = some .directory := by
      unfold find? Path.place Path.origin
      rw [hparts]
      split <;> rfl
    rw [hdir] at hnone
    cases hnone
  · exact place_not_mem_places_parent hup hparts hmem

/-- A writer puts the whole new content at the path or fails.

If it fails, then the target, the temporary path and everything else are as they were, except that
a temporary file may be gone and that directories may have been made on the way to the target.
Only through `..` does the target or the temporary path lead to such a directory. -/
theorem save_all_or_nothing (w : Payload) (path : Path) (s : Store) :
    (∃ t c s', (w.save path).run s = (.ok (), s') ∧
      w.temporary path = .ok t ∧ w.content? path = some c ∧
      s'.content path = .ok c ∧ s'.find? t.place = none ∧
      (∀ q ∈ places path.parent, s'.find? q = some .directory) ∧
      ∀ q, q ≠ path.place → q ≠ t.place →
        s'.find? q = s.find? q ∨ Made (places path.parent) s s' q) ∨
    (∃ e s', (w.save path).run s = (.error e, s') ∧
      (s'.find? path.place = s.find? path.place ∨ Made (places path.parent) s s' path.place) ∧
      (∀ t, w.temporary path = .ok t →
        s'.find? t.place = none ∨ s'.find? t.place = s.find? t.place ∨
          Made (places path.parent) s s' t.place) ∧
      (∀ q, (∀ t, w.temporary path = .ok t → q ≠ t.place) →
        s'.find? q = s.find? q ∨ Made (places path.parent) s s' q) ∧
      (".." ∉ path.parts →
        s'.find? path.place = s.find? path.place ∧
        ∀ t, w.temporary path = .ok t →
          s'.find? t.place = none ∨ s'.find? t.place = s.find? t.place)) := by
  rcases hrun : (w.save path).run s with ⟨e | _, s'⟩
  · right
    -- up to `s₁` the way to the target was made; from there on a temporary file may be gone
    obtain ⟨s₁, hgrows, hend⟩ := Payload.withdrawn_of_run hrun
    have hothers : ∀ q, (∀ t, w.temporary path = .ok t → q ≠ t.place) →
        s'.find? q = s.find? q ∨ Made (places path.parent) s s' q := by
      intro q hq
      rcases hend with rfl | ⟨t, ht, hwithdrawn⟩
      · exact hgrows q
      · exact hgrows.of_eq (hwithdrawn.others q (hq t ht))
    -- the temporary file lies beside the target and is never the target itself
    have htarget := hothers path.place fun t ht => (w.beside ht).place_ne
    have htemporary : ∀ t, w.temporary path = .ok t →
        s'.find? t.place = none ∨ s'.find? t.place = s.find? t.place ∨
          Made (places path.parent) s s' t.place := by
      intro t ht
      rcases hend with rfl | ⟨t', ht', hwithdrawn⟩
      · exact .inr (hgrows t.place)
      · obtain rfl : t' = t := Except.ok.inj (ht'.symm.trans ht)
        exact hwithdrawn.temporary.imp_right hgrows.of_eq
    -- without `..` no directory on the way is at the target or at the temporary path
    refine ⟨e, s', rfl, htarget, htemporary, hothers, fun hup => ⟨?_, fun t ht => ?_⟩⟩
    · exact htarget.resolve_right (not_made_place s s' hup)
    · have hbeside := w.beside ht
      have hup' : ".." ∉ t.parts := by
        rw [Path.parts_eq hbeside.parts_ne_nil', hbeside.parent_eq, List.mem_append,
          List.mem_singleton, not_or]
        exact ⟨fun hmem => hup (List.dropLast_subset _ hmem), hbeside.name_ne_up.symm⟩
      have hnot := not_made_place s s' hup'
      rw [hbeside.parent_eq] at hnot
      exact (htemporary t ht).imp_right fun h => h.resolve_right hnot
  · left
    -- the temporary file was complete before it took the place of the target
    obtain ⟨t, c, s₁, ht, hnew, hgrows, hreplaced⟩ := Payload.saved_of_run hrun
    refine ⟨t, c, s', rfl, ht, hnew, hreplaced.content, hreplaced.gone, ?_, ?_⟩
    · intro q hq
      have hlocate := (content_eq_ok.mp hreplaced.content).1
      exact directory_of_locate hlocate (w.beside ht).parts_ne_nil hq
    · intro q hq hqt
      exact hgrows.of_eq (hreplaced.others q hq hqt)

/-- A new file in a new directory. -/
theorem save_all_or_nothing_new_file :
    ∃ s', ((Payload.bytes "x".toUTF8).save ⟨.relative, ["d", "a"]⟩).run {} = (.ok (), s') ∧
      s'.content ⟨.relative, ["d", "a"]⟩ = .ok (.bytes "x".toUTF8) ∧
      s'.find? ⟨.above 0, ["d", "a.tmp"]⟩ = none ∧
      s'.find? ⟨.above 0, ["d"]⟩ = some .directory := by
  have hrun : ∃ s', ((Payload.bytes "x".toUTF8).save ⟨.relative, ["d", "a"]⟩).run {} =
      (.ok (), s') := ⟨_, rfl⟩
  obtain ⟨s', hrun⟩ := hrun
  obtain ⟨t, c, s'', hrun', ht, hnew, hcontent, hgone, hdirs, -⟩ | ⟨e, s'', hrun', -⟩ :=
    save_all_or_nothing (.bytes "x".toUTF8) ⟨.relative, ["d", "a"]⟩ {}
  · obtain rfl : Path.mk .relative ["d", "a.tmp"] = t := Except.ok.inj ht
    obtain rfl := Option.some.inj hnew
    exact ⟨s'', hrun', hcontent, hgone, hdirs _ (by decide)⟩
  · rw [hrun] at hrun'
    cases hrun'

/-- A failed attempt can leave a directory at its target, where nothing was before: the directory
that was made so that the path could be followed. -/
theorem save_through_new_directory :
    ∃ e s', ((Payload.bytes "x".toUTF8).save ⟨.relative, ["b", "..", "b"]⟩).run {} =
        (.error e, s') ∧
      ({} : Store).find? (Path.place ⟨.relative, ["b", "..", "b"]⟩) = none ∧
      s'.find? (Path.place ⟨.relative, ["b", "..", "b"]⟩) = some .directory := by
  refine ⟨_, _, rfl, rfl, rfl⟩

end LoopPainter.Store
