import LoopPainter.Proofs.Store.Places
import LoopPainter.Store.Atomic

/-!
# What the actions of a store do

Each action is opened once, here.  It either does its work, of which the lemma with its name and
`_cases` says when and what, or fails and leaves the store as it was.  Only `ensureDirectory` can
fail after a part of its work: it may have made some of the missing directories on the way
(`Grows`), and nothing else.
-/

namespace LoopPainter.Store

variable {ε α β : Type} {s s' s'' : Store} {p q : Place} {path : Path} {way way' : List Place}

/-! ## Running actions -/

@[simp] theorem run_pure (v : α) (s : Store) :
    (pure v : ExceptT ε (StateM Store) α).run s = (.ok v, s) := rfl

@[simp] theorem run_throw (e : ε) (s : Store) :
    (throw e : ExceptT ε (StateM Store) α).run s = (.error e, s) := rfl

@[simp] theorem run_get (s : Store) :
    (get : ExceptT ε (StateM Store) Store).run s = (.ok s, s) := rfl

@[simp] theorem run_modify (f : Store → Store) (s : Store) :
    (modify f : ExceptT ε (StateM Store) Unit).run s = (.ok (), f s) := rfl

@[simp] theorem run_bind (a : ExceptT ε (StateM Store) α) (f : α → ExceptT ε (StateM Store) β)
    (s : Store) :
    (a >>= f).run s =
      match a.run s with
      | (.ok v, s') => (f v).run s'
      | (.error e, s') => (.error e, s') := by
  change (do let (v, s') ← a.run s; ExceptT.bindCont f v s' : Id _) = _
  rcases a.run s with ⟨_ | _, _⟩ <;> rfl

@[simp] theorem run_tryCatch (a : ExceptT ε (StateM Store) α)
    (f : ε → ExceptT ε (StateM Store) α) (s : Store) :
    (tryCatch a f).run s =
      match a.run s with
      | (.ok v, s') => (.ok v, s')
      | (.error e, s') => (f e).run s' := by
  change (do
    let (v, s') ← a.run s
    (match v with | .ok v => pure (.ok v) | .error e => f e : StateM Store (Except ε α)) s' :
      Id _) = _
  rcases a.run s with ⟨_ | _, _⟩ <;> rfl

@[simp] theorem run_adapt {δ : Type} (g : δ → ε) (a : ExceptT δ (StateM Store) α) (s : Store) :
    (a.adapt g).run s =
      match a.run s with
      | (.ok v, s') => (.ok v, s')
      | (.error e, s') => (.error (g e), s') := by
  change (do let (v, s') ← a.run s; pure (Except.mapError g v, s') : Id _) = _
  rcases a.run s with ⟨_ | _, _⟩ <;> rfl

theorem run_adapt_eq_ok_iff {δ : Type} {g : δ → ε} {a : ExceptT δ (StateM Store) α} {v : α} :
    (a.adapt g).run s = (.ok v, s') ↔ a.run s = (.ok v, s') := by
  rw [run_adapt]
  rcases a.run s with ⟨_ | _, s₁⟩
  · constructor <;> nofun
  · constructor
    all_goals
      intro h
      cases h
      rfl

theorem run_bind_ok {a : ExceptT ε (StateM Store) α} {v : α} (h : a.run s = (.ok v, s'))
    (f : α → ExceptT ε (StateM Store) β) : (a >>= f).run s = (f v).run s' := by
  rw [run_bind, h]

theorem run_bind_error {a : ExceptT ε (StateM Store) α} {e : ε} (h : a.run s = (.error e, s'))
    (f : α → ExceptT ε (StateM Store) β) : (a >>= f).run s = (.error e, s') := by
  rw [run_bind, h]

theorem run_widen_ok {a : Action α} {v : α} (h : a.run s = (.ok v, s')) (g : Fault → ε) :
    (widen g a).run s = (.ok v, s') := by
  rw [widen, run_adapt, h]

theorem run_widen_error {a : Action α} {f : Fault} (h : a.run s = (.error f, s')) (g : Fault → ε) :
    (widen g a).run s = (.error (g f), s') := by
  rw [widen, run_adapt, h]

@[simp] theorem run_fail (path : Path) (c : Cause) (s : Store) :
    (fail path c : Action α).run s = (.error ⟨c, path.toString⟩, s) := rfl

/-! ## Single actions -/

theorem reach_of_locate (h : s.locate path = .ok path.place) :
    (reach path).run s = (.ok (path.place, s.find? path.place), s) := by
  simp [reach, lookup_eq_ok.mpr ⟨h, rfl⟩]

theorem reach_cases (path : Path) (s : Store) :
    (s.locate path = .ok path.place ∧
      (reach path).run s = (.ok (path.place, s.find? path.place), s)) ∨
    ∃ f, (reach path).run s = (.error f, s) := by
  cases h : s.lookup path with
  | error c => exact .inr ⟨⟨c, path.toString⟩, by simp [reach, h]⟩
  | ok r =>
      have hlocate := (lookup_eq_ok.mp h).1
      rw [place_of_locate hlocate] at hlocate
      exact .inl ⟨hlocate, reach_of_locate hlocate⟩

theorem makeDirectory_cases (path : Path) (s : Store) :
    (s.locate path = .ok path.place ∧ s.find? path.place = none ∧
      (makeDirectory path).run s = (.ok (), s.insert path.place .directory)) ∨
    ∃ f, (makeDirectory path).run s = (.error f, s) := by
  rcases reach_cases path s with ⟨hlocate, hreach⟩ | ⟨f, hreach⟩
  · cases hfind : s.find? path.place with
    | none => exact .inl ⟨hlocate, rfl, by simp [makeDirectory, hreach, hfind]⟩
    | some n =>
        exact .inr ⟨⟨.alreadyExists, path.toString⟩, by simp [makeDirectory, hreach, hfind]⟩
  · exact .inr ⟨f, by simp [makeDirectory, hreach]⟩

theorem run_isDirectory (path : Path) (s : Store) :
    (isDirectory path).run s =
      match s.stat path with
      | .ok n => (.ok (n == some .directory), s)
      | .error f => (.error f, s) := by
  rw [isDirectory, run_bind, run_get]
  dsimp only
  cases s.stat path <;> rfl

theorem unlessDirectory_cases (path : Path) (f : Fault) (s : Store) :
    (s.locate path = .ok path.place ∧ s.find? path.place = some .directory ∧
      (unlessDirectory path f).run s = (.ok (), s)) ∨
    ∃ f', (unlessDirectory path f).run s = (.error f', s) := by
  by_cases hnull : f.cause = .nullByte
  · exact .inr ⟨f, by simp [unlessDirectory, hnull]⟩
  cases hstat : s.stat path with
  | error f' => exact .inr ⟨f', by simp [unlessDirectory, hnull, run_isDirectory, hstat]⟩
  | ok n =>
      by_cases hdir : (n == some .directory) = true
      · obtain rfl := eq_of_beq hdir
        obtain ⟨hlocate, hfind⟩ := stat_eq_ok_some.mp hstat
        exact .inl ⟨hlocate, hfind, by simp [unlessDirectory, hnull, run_isDirectory, hstat]⟩
      · exact .inr ⟨f, by simp [unlessDirectory, hnull, run_isDirectory, hstat, hdir]⟩

theorem run_writeFile (hlocate : s.locate path = .ok path.place)
    (hdir : s.find? path.place ≠ some .directory) (c : Content) :
    (writeFile path c).run s = (.ok (), s.insert path.place (.file c)) := by
  rw [writeFile, run_bind, reach_of_locate hlocate]
  dsimp only
  split
  · next heq => exact absurd (congrArg Prod.snd heq) hdir
  · next heq =>
      cases heq
      rfl

theorem writeFile_cases (path : Path) (c : Content) (s : Store) :
    (s.locate path = .ok path.place ∧ s.find? path.place ≠ some .directory ∧
      (writeFile path c).run s = (.ok (), s.insert path.place (.file c))) ∨
    ∃ f, (writeFile path c).run s = (.error f, s) := by
  rcases reach_cases path s with ⟨hlocate, hreach⟩ | ⟨f, hreach⟩
  · by_cases hdir : s.find? path.place = some .directory
    · exact .inr ⟨⟨.isDirectory, path.toString⟩, by simp [writeFile, hreach, hdir]⟩
    · exact .inl ⟨hlocate, hdir, run_writeFile hlocate hdir c⟩
  · exact .inr ⟨f, by simp [writeFile, hreach]⟩

/-- A file is moved onto a file or to where nothing is, never onto a directory. -/
theorem moveFile_cases (source target : Path) (s : Store) :
    (∃ c, s.content source = .ok c ∧ isUnnamed target = false ∧
      s.locate target = .ok target.place ∧ s.find? target.place ≠ some .directory ∧
      (moveFile source target).run s =
        (.ok (), (s.erase source.place).insert target.place (.file c))) ∨
    ∃ f, (moveFile source target).run s = (.error f, s) := by
  let failed (c : Cause) : Fault := ⟨c, source.toString⟩
  -- in the order in which the system looks: the source, the way to the target, the target
  by_cases hsource : isUnnamed source = true
  · exact .inr ⟨failed .busy, by simp [moveFile, hsource, failed]⟩
  rcases reach_cases source s with ⟨hlocate, hreach⟩ | ⟨f, hreach⟩
  · cases hfind : s.find? source.place with
    | none => exact .inr ⟨failed .notFound, by simp [moveFile, hsource, hreach, hfind, failed]⟩
    | some n =>
        cases n with
        | directory =>
            exact .inr ⟨failed .isDirectory, by simp [moveFile, hsource, hreach, hfind, failed]⟩
        | file c =>
            have hcontent := content_eq_ok.mpr ⟨hlocate, hfind⟩
            cases hlookup : s.lookup target with
            | error cause =>
                exact .inr ⟨failed cause,
                  by simp [moveFile, hsource, hreach, hfind, hlookup, failed]⟩
            | ok r =>
                obtain ⟨q, n⟩ := r
                obtain ⟨hq, hn⟩ := lookup_eq_ok.mp hlookup
                obtain rfl := place_of_locate hq
                by_cases htarget : isUnnamed target = true
                · exact .inr ⟨failed .busy,
                    by simp [moveFile, hsource, hreach, hfind, hlookup, htarget, failed]⟩
                by_cases hdir : n = some .directory
                · exact .inr ⟨failed .isDirectory,
                    by simp [moveFile, hsource, hreach, hfind, hlookup, htarget, hdir, failed]⟩
                · refine .inl ⟨c, hcontent, by simpa using htarget, hq, hn ▸ hdir, ?_⟩
                  simp [moveFile, hsource, hreach, hfind, hlookup, htarget, hdir]
  · exact .inr ⟨f, by simp [moveFile, hsource, hreach]⟩

theorem run_moveFile {source target : Path} {c : Content} (hsource : isUnnamed source = false)
    (hcontent : s.content source = .ok c) (htarget : isUnnamed target = false)
    (hlocate : s.locate target = .ok target.place)
    (hdir : s.find? target.place ≠ some .directory) :
    (moveFile source target).run s =
      (.ok (), (s.erase source.place).insert target.place (.file c)) := by
  obtain ⟨hreach, hfind⟩ := content_eq_ok.mp hcontent
  have hlookup : s.lookup target = .ok (target.place, s.find? target.place) :=
    lookup_eq_ok.mpr ⟨hlocate, rfl⟩
  simp [moveFile, hsource, reach_of_locate hreach, hfind, hlookup, htarget, hdir]

theorem run_pathExists (path : Path) (s : Store) :
    (pathExists path).run s =
      match s.stat path with
      | .ok n => (.ok n.isSome, s)
      | .error f => (.error f, s) := by
  rw [pathExists, run_bind, run_get]
  dsimp only
  cases s.stat path <;> rfl

/-- What is discarded is a file.  Where there is none, nothing happens, or the attempt fails. -/
theorem discard_cases (path : Path) (s : Store) :
    (∃ c, s.content path = .ok c ∧ (discard path).run s = (.ok (), s.erase path.place)) ∨
    (∀ c, s.content path ≠ .ok c) ∧ ∃ r, (discard path).run s = (r, s) := by
  -- only a file is taken away; all else comes down to there being none
  have hno : (∀ c, s.stat path ≠ .ok (some (.file c))) → ∀ c, s.content path ≠ .ok c :=
    fun h c hc => h c (stat_eq_ok_some.mpr (content_eq_ok.mp hc))
  cases hstat : s.stat path with
  | error f =>
      exact .inr ⟨hno (by simp [hstat]), .error f, by simp [discard, run_pathExists, hstat]⟩
  | ok n =>
      cases n with
      | none => exact .inr ⟨hno (by simp [hstat]), .ok (), by simp [discard, run_pathExists, hstat]⟩
      | some n =>
          obtain ⟨hlocate, hfind⟩ := stat_eq_ok_some.mp hstat
          have hreach := reach_of_locate hlocate
          rw [hfind] at hreach
          cases n with
          | directory =>
              exact .inr ⟨hno (by simp [hstat]), .error ⟨.isDirectory, path.toString⟩,
                by simp [discard, run_pathExists, hstat, removeFile, hreach]⟩
          | file c =>
              exact .inl ⟨c, content_eq_ok.mpr ⟨hlocate, hfind⟩,
                by simp [discard, run_pathExists, hstat, removeFile, hreach]⟩

/-! ## Making directories -/

/-- A place on the way at which nothing was and a directory is. -/
def Made (way : List Place) (s s' : Store) (q : Place) : Prop :=
  q ∈ way ∧ s.find? q = none ∧ s'.find? q = some .directory

/-- The second store is the first one with some missing directories on the way made. -/
def Grows (way : List Place) (s s' : Store) : Prop :=
  ∀ q, s'.find? q = s.find? q ∨ Made way s s' q

theorem Grows.refl (way : List Place) (s : Store) : Grows way s s :=
  fun _ => .inl rfl

theorem Grows.keepsDirectories (h : Grows way s s') : KeepsDirectories s s' := by
  intro q hq
  rcases h q with heq | ⟨-, -, hmade⟩
  · rw [heq, hq]
  · exact hmade

theorem Grows.trans (h : Grows way s s') (h' : Grows way s' s'') : Grows way s s'' := by
  intro q
  rcases h q with heq | ⟨hway, hnone, hmade⟩
  · rcases h' q with heq' | ⟨hway, hnone, hmade⟩
    · exact .inl (heq'.trans heq)
    · exact .inr ⟨hway, heq ▸ hnone, hmade⟩
  · exact .inr ⟨hway, hnone, h'.keepsDirectories q hmade⟩

theorem Grows.mono (h : Grows way s s') (hsub : way ⊆ way') : Grows way' s s' := by
  intro q
  exact (h q).imp_right fun hmade => ⟨hsub hmade.1, hmade.2⟩

theorem grows_insert (hway : p ∈ way) (hnone : s.find? p = none) :
    Grows way s (s.insert p .directory) := by
  intro q
  have hdir : s.find? p ≠ some .directory := by simp [hnone]
  by_cases hq : q = p
  · subst hq
    exact .inr ⟨hway, hnone, find?_insert_self hdir _⟩
  · exact .inl (find?_insert_of_ne hdir _ hq)

/-- The path leads to a directory. -/
def HasDirectory (s : Store) (path : Path) : Prop :=
  s.locate path = .ok path.place ∧ s.find? path.place = some .directory

theorem hasDirectory_insert (hlocate : s.locate path = .ok path.place)
    (hnone : s.find? path.place = none) :
    HasDirectory (s.insert path.place .directory) path := by
  have hdir : s.find? path.place ≠ some .directory := by simp [hnone]
  refine ⟨locate_mono (keepsDirectories_insert hdir _) hlocate, ?_⟩
  exact find?_insert_self hdir _

/-- What is known after an attempt to have a directory at a path, from what it gave: at most
directories on the way were made, and if it succeeded, the path leads to a directory. -/
def Ensured (way : List Place) (path : Path) (s : Store) (r : Except Fault Unit × Store) : Prop :=
  Grows way s r.2 ∧ (r.1 = .ok () → HasDirectory r.2 path)

theorem ensured_error (way : List Place) (path : Path) (s : Store) (f : Fault) :
    Ensured way path s (.error f, s) :=
  ⟨.refl way s, nofun⟩

theorem Ensured.after {r : Except Fault Unit × Store} (hgrows : Grows way s s')
    (h : Ensured way path s' r) : Ensured way path s r :=
  ⟨hgrows.trans h.1, h.2⟩

theorem ensured_unlessDirectory (way : List Place) (path : Path) (f : Fault) (s : Store) :
    Ensured way path s ((unlessDirectory path f).run s) := by
  rcases unlessDirectory_cases path f s with ⟨hlocate, hdir, hrun⟩ | ⟨f', hrun⟩
  · rw [hrun]
    exact ⟨.refl way s, fun _ => ⟨hlocate, hdir⟩⟩
  · rw [hrun]
    exact ensured_error way path s f'

theorem ensured_makeDirectory {handler : Fault → Action Unit} (hway : path.place ∈ way)
    (h : ∀ f, Ensured way path s ((handler f).run s)) :
    Ensured way path s ((tryCatch (makeDirectory path) handler).run s) := by
  rw [run_tryCatch]
  rcases makeDirectory_cases path s with ⟨hlocate, hnone, hrun⟩ | ⟨f, hrun⟩
  · rw [hrun]
    exact ⟨grows_insert hway hnone, fun _ => hasDirectory_insert hlocate hnone⟩
  · rw [hrun]
    exact h f

theorem ensured_ensureNames (root : Path.Root) (names : List String) (s : Store) :
    Ensured (places ⟨root, names.reverse⟩) ⟨root, names.reverse⟩ s
      ((ensureNames root names).run s) := by
  induction names generalizing s with
  | nil =>
      have hend : Path.place ⟨root, []⟩ ∈ places ⟨root, []⟩ := follow_mem_trail _ _
      exact ensured_makeDirectory hend fun f => ensured_unlessDirectory _ _ f s
  | cons name above ih =>
      have habove : places ⟨root, above.reverse⟩ ⊆ places ⟨root, (name :: above).reverse⟩ := by
        rw [places_eq, places_eq, List.reverse_cons]
        exact trail_subset _ _ _
      have hend : Path.place ⟨root, (name :: above).reverse⟩ ∈
          places ⟨root, (name :: above).reverse⟩ := follow_mem_trail _ _
      refine ensured_makeDirectory hend fun f => ?_
      split
      · -- the directory above is made first, and then this one is tried again
        rw [run_bind]
        have hgrows := (ih s).1.mono habove
        rcases hrun : (ensureNames root above).run s with ⟨_ | _, s₁⟩ <;> rw [hrun] at hgrows
        · exact ⟨hgrows, nofun⟩
        · refine .after hgrows (ensured_makeDirectory hend fun f => ?_)
          dsimp only
          split
          · exact ensured_error _ _ s₁ f
          · exact ensured_unlessDirectory _ _ f s₁
      · exact ensured_unlessDirectory _ _ f s

/-- All that is done to make sure of a directory is to make directories on the way to it. -/
theorem ensured_ensureDirectory (path : Path) (s : Store) :
    Ensured (places path) path s ((ensureDirectory path).run s) := by
  have h := ensured_ensureNames path.root path.parts.reverse s
  rw [List.reverse_reverse] at h
  exact h

end LoopPainter.Store
