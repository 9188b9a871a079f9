import LoopPainter.Proofs.Store.Actions
import LoopPainter.Proofs.Store.Scratch

/-!
# Ways that are clear

A path can be followed if its text keeps the limits of a store (`Path.Fits`) and every place on its
way is a directory (`hasDirectory_iff`, `locate_eq_ok_iff`).  A missing directory can be made, a
file in its place cannot: so the directory at a path can be made sure of exactly if the path fits
and there is no file on its way (`exists_ensureDirectory_iff`).
-/

namespace LoopPainter

namespace Path

/-- The text of a path keeps the limits of a store. -/
structure Fits (path : Path) : Prop where
  noNull : '\x00' ∉ path.toString.toList
  short : path.toString.utf8ByteSize < Store.pathLimit
  names : ∀ name ∈ path.parts, name = ".." ∨ name.utf8ByteSize ≤ Store.maxName

variable {path : Path}

/-! ## The text of the path above -/

theorem prefix_intercalate (sep : List Char) (parts : List (List Char)) (last : List Char) :
    sep.intercalate parts <+: sep.intercalate (parts ++ [last]) := by
  induction parts with
  | nil => exact List.nil_prefix
  | cons part parts ih =>
      cases parts with
      | nil => simp [List.intercalate_cons_cons]
      | cons next parts =>
          simp only [List.cons_append, List.intercalate_cons_cons] at ih ⊢
          exact (List.prefix_append_right_inj _).mpr ih

/-- The path above is written as the start of the path, unless it is the working directory. -/
theorem toString_parent (path : Path) :
    path.parent.toString = "." ∨ path.parent.toString.toList <+: path.toString.toList := by
  by_cases hparts : path.parts = []
  · right
    have heq : path.parent = path := by
      rw [parent, hparts]
      exact congrArg (Path.mk path.root) hparts.symm
    simp only [heq, List.prefix_rfl]
  have hwritten : path.toString = path.root.text ++ "/".intercalate path.parts := by
    unfold toString
    split
    · next h => exact absurd h hparts
    · rfl
  unfold toString
  split
  · exact .inl rfl
  · right
    rw [← toString, hwritten, String.toList_append, String.toList_append,
      String.toList_intercalate, String.toList_intercalate]
    refine (List.prefix_append_right_inj _).mpr ?_
    rw [← List.dropLast_concat_getLast hparts, List.map_append]
    exact prefix_intercalate _ _ _

theorem utf8ByteSize_le_of_start {a b : String} (h : a.toList <+: b.toList) :
    a.utf8ByteSize ≤ b.utf8ByteSize := by
  obtain ⟨rest, hrest⟩ := h
  have hb : b = a ++ String.ofList rest := by
    rw [← String.toList_inj, String.toList_append, String.toList_ofList, hrest]
  rw [hb, String.utf8ByteSize_append]
  omega

theorem Fits.parent (h : path.Fits) : path.parent.Fits := by
  have hnames : ∀ name ∈ path.parent.parts, name = ".." ∨ name.utf8ByteSize ≤ Store.maxName :=
    fun name hmem => h.names name (List.dropLast_subset _ hmem)
  rcases path.toString_parent with hhere | hstart
  · exact ⟨by rw [hhere]; decide, by rw [hhere]; decide, hnames⟩
  · exact ⟨fun hmem => h.noNull (hstart.subset hmem),
      Nat.lt_of_le_of_lt (utf8ByteSize_le_of_start hstart) h.short, hnames⟩

end Path

namespace Store

variable {s s' : Store} {p q : Place} {path t : Path} {name : String} {names : List String}

/-! ## Following paths -/

theorem walk_cons_of_directory (hdir : s.find? p = some .directory)
    (hname : name = ".." ∨ name.utf8ByteSize ≤ maxName) :
    s.walk p (name :: names) = s.walk (p.enter name) names := by
  rw [walk, hdir, Place.enter]
  rcases hname with rfl | hle
  · rfl
  · simp only [Nat.not_lt.mpr hle, if_false]
    split <;> rfl

/-- A walk ends in a directory if its names are short and everything on its way is a directory. -/
theorem walk_directory_iff :
    (s.walk p names = .ok (p.follow names) ∧ s.find? (p.follow names) = some .directory) ↔
      (∀ name ∈ names, name = ".." ∨ name.utf8ByteSize ≤ maxName) ∧
        ∀ q ∈ trail p names, s.find? q = some .directory := by
  induction names generalizing p with
  | nil => simp [walk, trail, Place.follow]
  | cons name names ih =>
      have hfollow : p.follow (name :: names) = (p.enter name).follow names := rfl
      rw [hfollow, walk_cons_eq_ok, and_assoc, and_assoc, ih, trail_cons, List.forall_mem_cons,
        List.forall_mem_cons]
      tauto

theorem walk_concat_iff :
    s.walk p (names ++ [name]) = .ok (p.follow (names ++ [name])) ↔
      (∀ n ∈ names ++ [name], n = ".." ∨ n.utf8ByteSize ≤ maxName) ∧
        ∀ q ∈ trail p names, s.find? q = some .directory := by
  induction names generalizing p with
  | nil =>
      have hfollow : p.follow ([] ++ [name]) = p.enter name := rfl
      have hend : s.walk (p.enter name) [] = .ok (p.enter name) := rfl
      rw [hfollow, List.nil_append, walk_cons_eq_ok]
      simp [hend, trail, and_comm]
  | cons first names ih =>
      have hfollow : p.follow (first :: names ++ [name]) =
          (p.enter first).follow (names ++ [name]) := rfl
      rw [hfollow, List.cons_append, walk_cons_eq_ok, ih, trail_cons, List.forall_mem_cons,
        List.forall_mem_cons]
      tauto

theorem hasDirectory_iff :
    s.HasDirectory path ↔ path.Fits ∧ ∀ q ∈ places path, s.find? q = some .directory := by
  have hwalk : (s.walk path.origin path.parts = .ok path.place ∧
      s.find? path.place = some .directory) ↔ _ := walk_directory_iff
  rw [HasDirectory, locate_eq_ok, places_eq]
  constructor
  · rintro ⟨⟨hnull, hshort, hlocate⟩, hdir⟩
    obtain ⟨hnames, hway⟩ := hwalk.mp ⟨hlocate, hdir⟩
    exact ⟨⟨hnull, hshort, hnames⟩, hway⟩
  · rintro ⟨⟨hnull, hshort, hnames⟩, hway⟩
    obtain ⟨hlocate, hdir⟩ := hwalk.mpr ⟨hnames, hway⟩
    exact ⟨⟨hnull, hshort, hlocate⟩, hdir⟩

theorem locate_eq_ok_iff (hparts : path.parts ≠ []) :
    s.locate path = .ok path.place ↔
      path.Fits ∧ ∀ q ∈ places path.parent, s.find? q = some .directory := by
  have hwalk : s.walk path.origin (path.parent.parts ++ [path.name]) =
      .ok (path.origin.follow (path.parent.parts ++ [path.name])) ↔ _ := walk_concat_iff
  rw [← Path.parts_eq hparts] at hwalk
  rw [locate_eq_ok]
  constructor
  · rintro ⟨hnull, hshort, hlocate⟩
    obtain ⟨hnames, hway⟩ := hwalk.mp hlocate
    exact ⟨⟨hnull, hshort, hnames⟩, hway⟩
  · rintro ⟨⟨hnull, hshort, hnames⟩, hway⟩
    exact ⟨hnull, hshort, hwalk.mpr ⟨hnames, hway⟩⟩

/-- A path in a directory that does not fit is too long, or it has a null character. -/
theorem locate_eq_nameTooLong (hparts : path.parts ≠ []) (hnull : '\x00' ∉ path.toString.toList)
    (hfits : ¬ path.Fits) (hdir : s.HasDirectory path.parent) :
    s.locate path = .error .nameTooLong := by
  obtain ⟨hparent, hway⟩ := hasDirectory_iff.mp hdir
  by_cases hlong : pathLimit ≤ path.toString.utf8ByteSize
  · simp [locate, hnull, hlong]
  have hlocate : s.locate path = s.walk path.origin (path.parent.parts ++ [path.name]) := by
    rw [← Path.parts_eq hparts]
    simp [locate, hnull, hlong, Path.origin]
  -- the names before the last one are those of the directory
  have hname : ¬ (path.name = ".." ∨ path.name.utf8ByteSize ≤ maxName) := by
    intro hname
    refine hfits ⟨hnull, Nat.not_le.mp hlong, ?_⟩
    rw [Path.parts_eq hparts]
    intro n hn
    rcases List.mem_append.mp hn with hn | hn
    · exact hparent.names n hn
    · rwa [List.mem_singleton.mp hn]
  rw [hlocate]
  rw [not_or, Nat.not_le] at hname
  obtain ⟨hup, hlong⟩ := hname
  have hwalk (p : Place) (names : List String)
      (hnames : ∀ n ∈ names, n = ".." ∨ n.utf8ByteSize ≤ maxName)
      (hway : ∀ q ∈ trail p names, s.find? q = some .directory) :
      s.walk p (names ++ [path.name]) = .error .nameTooLong := by
    induction names generalizing p with
    | nil =>
        have hhere := hway p (List.mem_singleton_self p)
        simp [walk, hhere, hup, hlong]
    | cons name names ih =>
        rw [List.forall_mem_cons] at hnames
        rw [trail_cons, List.forall_mem_cons] at hway
        rw [List.cons_append, walk_cons_of_directory hway.1 hnames.1]
        exact ih _ hnames.2 hway.2
  exact hwalk _ _ hparent.names hway

/-! ## Clear ways -/

/-- The path fits and no file is on its way. -/
structure Clear (s : Store) (path : Path) : Prop where
  fits : path.Fits
  noFile : ∀ q ∈ places path, ∀ c, s.find? q ≠ some (.file c)

/-- No file was on the way to a directory before directories were made. -/
theorem clear_of_grows {way : List Place} (hdir : s'.HasDirectory path)
    (hgrows : Grows way s s') : s.Clear path := by
  obtain ⟨hfits, hway⟩ := hasDirectory_iff.mp hdir
  refine ⟨hfits, fun q hq c hfile => ?_⟩
  rcases hgrows q with heq | ⟨-, hnone, -⟩
  · have hdir := hway q hq
    rw [heq, hfile] at hdir
    cases hdir
  · rw [hfile] at hnone
    cases hnone

theorem Clear.parent (h : s.Clear path) : s.Clear path.parent := by
  refine ⟨h.fits.parent, fun q hq => h.noFile q ?_⟩
  by_cases hparts : path.parts = []
  · have heq : path.parent.parts = path.parts := by rw [Path.parent, hparts]; rfl
    rw [places_eq] at hq ⊢
    exact heq ▸ hq
  · rw [places_eq, Path.parts_eq hparts]
    exact trail_subset _ _ _ hq

/-- What was made on the way is no file. -/
theorem Clear.grows {way : List Place} (h : s.Clear path) (hgrows : Grows way s s') :
    s'.Clear path := by
  refine ⟨h.fits, fun q hq c => ?_⟩
  rcases hgrows q with heq | ⟨-, -, hmade⟩
  · rw [heq]
    exact h.noFile q hq c
  · simp [hmade]

/-- Only a missing directory ends a walk without files. -/
theorem walk_eq_notFound (hshort : ∀ n ∈ names, n = ".." ∨ n.utf8ByteSize ≤ maxName)
    (hway : ∀ q ∈ trail p names, ∀ c, s.find? q ≠ some (.file c)) :
    s.walk p names = .ok (p.follow names) ∨ s.walk p names = .error .notFound := by
  induction names generalizing p with
  | nil => exact .inl rfl
  | cons name names ih =>
      rw [List.forall_mem_cons] at hshort
      rw [trail_cons, List.forall_mem_cons] at hway
      cases hfind : s.find? p with
      | none => exact .inr (by simp [walk, hfind])
      | some n =>
          cases n with
          | file c => exact absurd hfind (hway.1 c)
          | directory =>
              rw [walk_cons_of_directory hfind hshort.1]
              exact ih hshort.2 hway.2

theorem Clear.locate (h : s.Clear path) :
    s.locate path = .ok path.place ∨ s.locate path = .error .notFound := by
  have hlocate : s.locate path = s.walk path.origin path.parts := by
    simp [Store.locate, h.fits.noNull, Nat.not_le.mpr h.fits.short, Path.origin]
  rw [hlocate]
  exact walk_eq_notFound h.fits.names h.noFile

/-! ## Making sure of directories -/

theorem run_unlessDirectory (h : s.HasDirectory path) {f : Fault} (hf : f.cause ≠ .nullByte) :
    (unlessDirectory path f).run s = (.ok (), s) := by
  have hstat : s.stat path = .ok (some .directory) := stat_eq_ok_some.mpr h
  simp [unlessDirectory, hf, run_isDirectory, hstat]

theorem run_makeDirectory_of_error {c : Cause} (h : s.locate path = .error c) :
    (makeDirectory path).run s = (.error ⟨c, path.toString⟩, s) := by
  have hlookup : s.lookup path = .error c := by
    rw [lookup, h]
    rfl
  simp [makeDirectory, reach, hlookup]

/-- A directory can be made where the path leads, unless a file is there. -/
theorem exists_run_makeDirectory (h : s.Clear path) (hlocate : s.locate path = .ok path.place)
    {handler : Fault → Action Unit}
    (hhandler : ∀ f, f.cause = .alreadyExists → handler f = unlessDirectory path f) :
    ∃ s', (tryCatch (makeDirectory path) handler).run s = (.ok (), s') := by
  have hreach := reach_of_locate hlocate
  cases hfind : s.find? path.place with
  | none =>
      refine ⟨s.insert path.place .directory, ?_⟩
      simp [makeDirectory, hreach, hfind]
  | some n =>
      cases n with
      | file c => exact absurd hfind (h.noFile _ (follow_mem_trail _ _) c)
      | directory =>
          refine ⟨s, ?_⟩
          simp [makeDirectory, hreach, hfind, hhandler,
            run_unlessDirectory ⟨hlocate, hfind⟩]

theorem exists_run_ensureNames {root : Path.Root} (h : s.Clear ⟨root, names.reverse⟩) :
    ∃ s', (ensureNames root names).run s = (.ok (), s') := by
  induction names generalizing s with
  | nil =>
      -- the root of a path is always found
      have hlocate : s.locate ⟨root, []⟩ = .ok (Path.place ⟨root, []⟩) :=
        h.locate.resolve_right fun hnot => by
          cases root <;> cases hnot
      exact exists_run_makeDirectory h hlocate fun _ _ => rfl
  | cons name above ih =>
      have hparent : Path.parent ⟨root, (name :: above).reverse⟩ = ⟨root, above.reverse⟩ := by
        simp [Path.parent]
      rcases h.locate with hlocate | hnot
      · refine exists_run_makeDirectory h hlocate fun f hf => ?_
        simp [hf]
      · -- the directories above are made, and then the path leads somewhere
        have habove := h.parent
        rw [hparent] at habove
        obtain ⟨s₁, hrun⟩ := ih habove
        have hensured := ensured_ensureNames root above s
        rw [hrun] at hensured
        have hclear := h.grows hensured.1
        have hlocate : s₁.locate ⟨root, (name :: above).reverse⟩ =
            .ok (Path.place ⟨root, (name :: above).reverse⟩) := by
          refine (locate_eq_ok_iff (by simp)).mpr ⟨h.fits, ?_⟩
          rw [hparent]
          exact (hasDirectory_iff.mp (hensured.2 rfl)).2
        rw [ensureNames, run_tryCatch, run_makeDirectory_of_error hnot]
        dsimp only
        rw [if_pos rfl, run_bind_ok hrun]
        exact exists_run_makeDirectory hclear hlocate fun f hf => by simp [hf]

/-- The directory at a path can be made sure of exactly if the way to it is clear. -/
theorem exists_ensureDirectory_iff :
    (∃ s', (ensureDirectory path).run s = (.ok (), s')) ↔ s.Clear path := by
  constructor
  · rintro ⟨s', hrun⟩
    have hensured := ensured_ensureDirectory path s
    rw [hrun] at hensured
    exact clear_of_grows (hensured.2 rfl) hensured.1
  · intro h
    refine exists_run_ensureNames ?_
    rwa [List.reverse_reverse]

end Store

end LoopPainter
