import LoopPainter.Store.Change
import Mathlib.Tactic.Common

/-!
# Where paths lead

A store has no links, so the place that a path leads to can be told from its names alone:
`Path.place` follows them, and `..` leads up.  Whether the path can be followed at all depends on
the store, and only on its directories.  A walk that succeeds ends at the place that the names tell
(`follow_of_walk`), all places on its way are directories (`directory_of_walk`), and it succeeds in
any store that has these directories as well (`walk_mono`).
-/

namespace LoopPainter

namespace Store

/-- The place that a name leads to from a directory. -/
def Place.enter (p : Place) (name : String) : Place :=
  if name == ".." then p.up else p.child name

/-- The place that names lead to, one after the other. -/
def Place.follow (p : Place) (names : List String) : Place :=
  names.foldl Place.enter p

end Store

namespace Path

open Store

/-- The place from which the names of a path are counted.  The working directory is nowhere below
the root: a path from the root never meets one from the working directory. -/
def origin (path : Path) : Place :=
  if path.root = .relative then .here else ⟨.root, []⟩

/-- The place that a path leads to if it leads anywhere. -/
def place (path : Path) : Place :=
  path.origin.follow path.parts

end Path

namespace Store

variable {s s' : Store} {p q r : Place} {path : Path} {name : String} {names : List String}

/-! ## Entries -/

/-- A place without names is the working directory or a root, which are always there. -/
theorem names_ne_nil (h : s.find? p ≠ some .directory) : p.names ≠ [] := by
  intro hnil
  apply h
  simp [find?, hnil]

section Change

variable (h : s.find? p ≠ some .directory)

include h

theorem find?_insert_self (n : Node) : (s.insert p n).find? p = some n := by
  rw [find?_insert _ _ _ _ (names_ne_nil h), if_pos rfl]

theorem find?_insert_of_ne (n : Node) (hq : q ≠ p) : (s.insert p n).find? q = s.find? q := by
  rw [find?_insert _ _ _ _ (names_ne_nil h), if_neg hq]

theorem find?_erase_self : (s.erase p).find? p = none := by
  rw [find?_erase _ _ _ (names_ne_nil h), if_pos rfl]

theorem find?_erase_of_ne (hq : q ≠ p) : (s.erase p).find? q = s.find? q := by
  rw [find?_erase _ _ _ (names_ne_nil h), if_neg hq]

end Change

/-- Every directory of the first store is one of the second. -/
def KeepsDirectories (s s' : Store) : Prop :=
  ∀ q, s.find? q = some .directory → s'.find? q = some .directory

theorem KeepsDirectories.refl (s : Store) : KeepsDirectories s s :=
  fun _ h => h

theorem KeepsDirectories.trans {s'' : Store} (h : KeepsDirectories s s')
    (h' : KeepsDirectories s' s'') : KeepsDirectories s s'' :=
  fun q hq => h' q (h q hq)

theorem keepsDirectories_insert (h : s.find? p ≠ some .directory) (n : Node) :
    KeepsDirectories s (s.insert p n) := by
  intro q hq
  have hne : q ≠ p := by
    rintro rfl
    exact h hq
  rw [find?_insert_of_ne h n hne, hq]

theorem keepsDirectories_erase (h : s.find? p ≠ some .directory) :
    KeepsDirectories s (s.erase p) := by
  intro q hq
  have hne : q ≠ p := by
    rintro rfl
    exact h hq
  rw [find?_erase_of_ne h hne, hq]

/-! ## Places by their names -/

@[simp] theorem Place.follow_append (p : Place) (names names' : List String) :
    p.follow (names ++ names') = (p.follow names).follow names' :=
  List.foldl_append

theorem Place.length_up_le (p : Place) : p.up.names.length ≤ p.names.length := by
  unfold Place.up
  split
  · exact Nat.le_refl _
  · exact Nat.zero_le _
  · simp

theorem Place.length_enter_le (p : Place) (name : String) :
    (p.enter name).names.length ≤ p.names.length + 1 := by
  unfold Place.enter
  split
  · have := p.length_up_le
    omega
  · simp [Place.child]

theorem Place.enter_of_ne (p : Place) (h : name ≠ "..") : p.enter name = p.child name := by
  simp [Place.enter, h]

/-- Without `..` the names are added to those of the place. -/
theorem Place.follow_of_not_mem (p : Place) (h : ".." ∉ names) :
    p.follow names = ⟨p.base, p.names ++ names⟩ := by
  induction names generalizing p with
  | nil => simp [Place.follow]
  | cons name names ih =>
      rw [List.mem_cons, not_or] at h
      calc p.follow (name :: names)
          = (p.enter name).follow names := rfl
        _ = ⟨p.base, (p.names ++ [name]) ++ names⟩ := by
            rw [p.enter_of_ne (Ne.symm h.1), ih _ h.2]
            rfl
        _ = ⟨p.base, p.names ++ name :: names⟩ := by simp

/-- No name leads from a directory to its own child and up at once. -/
theorem Place.up_ne_child (p : Place) (name : String) : p.up ≠ p.child name := by
  intro h
  have hlen := congrArg (fun q : Place => q.names.length) h
  have hup := p.length_up_le
  simp only [Place.child, List.length_append, List.length_singleton] at hlen
  omega

/-- Different names lead to different places, if one of them is not `..`. -/
theorem Place.enter_ne (p : Place) {name' : String} (h : name ≠ name') (hup : name' ≠ "..") :
    p.enter name ≠ p.enter name' := by
  rw [p.enter_of_ne hup]
  by_cases hname : name = ".."
  · subst hname
    exact p.up_ne_child name'
  · rw [p.enter_of_ne hname]
    simpa [Place.child] using h

/-! ## The places on the way -/

@[simp] theorem trail_cons (p : Place) (name : String) (names : List String) :
    trail p (name :: names) = p :: trail (p.enter name) names := rfl

theorem follow_mem_trail (p : Place) (names : List String) : p.follow names ∈ trail p names := by
  induction names generalizing p with
  | nil => exact List.mem_singleton_self p
  | cons name names ih => exact List.mem_cons_of_mem _ (ih (p.enter name))

theorem trail_subset (p : Place) (names names' : List String) :
    trail p names ⊆ trail p (names ++ names') := by
  induction names generalizing p with
  | nil =>
      cases names' with
      | nil => exact List.Subset.refl _
      | cons name names' => simp [trail]
  | cons name names ih => exact List.cons_subset_cons p (ih (p.enter name))

theorem length_le_of_mem_trail (h : q ∈ trail p names) :
    q.names.length ≤ p.names.length + names.length := by
  induction names generalizing p with
  | nil =>
      obtain rfl := List.mem_singleton.mp h
      simp
  | cons name names ih =>
      rw [trail_cons] at h
      rcases List.mem_cons.mp h with rfl | h
      · simp
      · have := ih h
        have := p.length_enter_le name
        simp only [List.length_cons]
        omega

/-! ## Walks -/

/-- A walk goes on from a directory, by a name that is not too long. -/
theorem walk_cons_eq_ok : s.walk p (name :: names) = .ok q ↔
    s.find? p = some .directory ∧ (name = ".." ∨ name.utf8ByteSize ≤ maxName) ∧
      s.walk (p.enter name) names = .ok q := by
  rw [walk, Place.enter]
  split
  · next h => simp [h]
  · next h => simp [h]
  · next h =>
      by_cases hup : name = ".."
      · simp [h, hup]
      · by_cases hlong : maxName < name.utf8ByteSize
        · simp [h, hup, hlong, Nat.not_le.mpr hlong]
        · simp [h, hup, hlong, Nat.not_lt.mp hlong]

/-- A walk ends at the place that the names tell. -/
theorem follow_of_walk (h : s.walk p names = .ok q) : q = p.follow names := by
  induction names generalizing p with
  | nil =>
      cases h
      rfl
  | cons name names ih => exact ih (walk_cons_eq_ok.mp h).2.2

/-- All places that a walk enters are directories. -/
theorem directory_of_walk (h : s.walk p (names ++ [name]) = .ok q) (hr : r ∈ trail p names) :
    s.find? r = some .directory := by
  -- a last name is needed for the walk to enter the last of these places as well
  induction names generalizing p with
  | nil =>
      obtain rfl := List.mem_singleton.mp hr
      exact (walk_cons_eq_ok.mp h).1
  | cons first names ih =>
      obtain ⟨hdir, -, hrest⟩ := walk_cons_eq_ok.mp h
      rcases List.mem_cons.mp hr with rfl | hr
      · exact hdir
      · exact ih hrest hr

/-- A walk succeeds wherever there are the same directories and perhaps more. -/
theorem walk_mono (hkeep : KeepsDirectories s s') (h : s.walk p names = .ok q) :
    s'.walk p names = .ok q := by
  induction names generalizing p with
  | nil => exact h
  | cons name names ih =>
      obtain ⟨hdir, hname, hrest⟩ := walk_cons_eq_ok.mp h
      exact walk_cons_eq_ok.mpr ⟨hkeep p hdir, hname, ih hrest⟩

/-! ## Paths -/

theorem places_eq (path : Path) : places path = trail path.origin path.parts := rfl

theorem locate_eq_ok : s.locate path = .ok q ↔
    '\x00' ∉ path.toString.toList ∧ path.toString.utf8ByteSize < pathLimit ∧
      s.walk path.origin path.parts = .ok q := by
  unfold locate
  dsimp only
  split
  · next hnull =>
      rw [List.contains_iff_mem] at hnull
      simp [hnull]
  · next hnull =>
      rw [List.contains_iff_mem] at hnull
      split
      · next hlong => simp [Nat.not_lt.mpr hlong]
      · next hshort => simp [hnull, Nat.not_le.mp hshort, Path.origin]

/-- A path that leads anywhere leads to its place. -/
theorem place_of_locate (h : s.locate path = .ok q) : q = path.place :=
  follow_of_walk (locate_eq_ok.mp h).2.2

theorem locate_mono (hkeep : KeepsDirectories s s') (h : s.locate path = .ok q) :
    s'.locate path = .ok q := by
  obtain ⟨hnull, hshort, hwalk⟩ := locate_eq_ok.mp h
  exact locate_eq_ok.mpr ⟨hnull, hshort, walk_mono hkeep hwalk⟩

/-- All places above the one that a path leads to are directories. -/
theorem directory_of_locate (h : s.locate path = .ok q) (hparts : path.parts ≠ [])
    (hr : r ∈ places path.parent) : s.find? r = some .directory := by
  have hwalk := (locate_eq_ok.mp h).2.2
  rw [← List.dropLast_concat_getLast hparts] at hwalk
  exact directory_of_walk hwalk hr

theorem lookup_eq_ok {n : Option Node} :
    s.lookup path = .ok (q, n) ↔ s.locate path = .ok q ∧ n = s.find? q := by
  unfold lookup
  cases s.locate path with
  | error cause => simp [Except.map]
  | ok p =>
      simp only [Except.map, Except.ok.injEq, Prod.mk.injEq]
      constructor
      · rintro ⟨rfl, rfl⟩
        exact ⟨rfl, rfl⟩
      · rintro ⟨rfl, rfl⟩
        exact ⟨rfl, rfl⟩

theorem stat_eq_ok_some {n : Node} :
    s.stat path = .ok (some n) ↔ s.locate path = .ok path.place ∧
      s.find? path.place = some n := by
  unfold stat
  constructor
  · intro h
    split at h
    · next q n' hlookup =>
        cases h
        obtain ⟨hlocate, hfind⟩ := lookup_eq_ok.mp hlookup
        rw [← place_of_locate hlocate]
        exact ⟨hlocate, hfind.symm⟩
    all_goals cases h
  · rintro ⟨hlocate, hfind⟩
    rw [lookup_eq_ok.mpr ⟨hlocate, rfl⟩, hfind]

theorem content_eq_ok {c : Content} :
    s.content path = .ok c ↔ s.locate path = .ok path.place ∧
      s.find? path.place = some (.file c) := by
  unfold content
  constructor
  · intro h
    split at h
    · next q c' hlookup =>
        cases h
        obtain ⟨hlocate, hfind⟩ := lookup_eq_ok.mp hlookup
        rw [← place_of_locate hlocate]
        exact ⟨hlocate, hfind.symm⟩
    all_goals cases h
  · rintro ⟨hlocate, hfind⟩
    rw [lookup_eq_ok.mpr ⟨hlocate, rfl⟩, hfind]

end Store

end LoopPainter
