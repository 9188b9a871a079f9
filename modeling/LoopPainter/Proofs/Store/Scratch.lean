import LoopPainter.Proofs.Store.Places
import LoopPainter.Store.Atomic
import Mathlib.Data.List.TakeWhile

/-!
# Temporary names

A temporary name is four characters longer than the name of the target and in the same directory.
So it never leads to the place of the target, and no directory on the way to the target depends on
which of the two is meant (`Beside`).  The temporary name of an image decides the same format as
the name of the target (`formatFor_temporary`).
-/

namespace LoopPainter

namespace Path

variable {path t : Path}

/-! ## The last name -/

theorem parts_eq (h : path.parts ≠ []) : path.parts = path.parent.parts ++ [path.name] := by
  rw [name, List.getLast?_eq_some_getLast h]
  exact (List.dropLast_concat_getLast h).symm

theorem place_eq_enter (h : path.parts ≠ []) :
    path.place = path.parent.place.enter path.name := by
  calc path.place
      = path.origin.follow (path.parent.parts ++ [path.name]) := by
        rw [place, ← parts_eq h]
    _ = path.parent.place.enter path.name := Store.Place.follow_append _ _ _

/-- The suffix of a name starts at its last dot, with something before and after it, or there is
none. -/
theorem splitSuffix_cases (name : List Char) :
    (∃ front ending, front ≠ [] ∧ ending ≠ [] ∧ '.' ∉ ending ∧ name = front ++ '.' :: ending ∧
      splitSuffix name = (front, '.' :: ending)) ∨
    splitSuffix name = (name, []) := by
  unfold splitSuffix
  dsimp only
  split
  · exact .inr rfl
  · next h =>
      simp only [Bool.or_eq_true, not_or, beq_iff_eq, List.isEmpty_iff] at h
      obtain ⟨⟨hending, hfront⟩, hlength⟩ := h
      have hsplit : name.reverse.takeWhile (· != '.') ++ name.reverse.dropWhile (· != '.') =
        name.reverse := List.takeWhile_append_dropWhile
      have hdot : '.' ∉ name.reverse.takeWhile (· != '.') := fun hmem => by
        simpa using List.mem_takeWhile_imp hmem
      cases hrest : name.reverse.dropWhile (· != '.') with
      | nil =>
          -- a name without a dot is all ending
          rw [hrest, List.append_nil] at hsplit
          rw [hsplit, List.length_reverse] at hlength
          exact absurd rfl hlength
      | cons c front =>
          have hhead := List.head_dropWhile_not (p := (· != '.')) (l := name.reverse)
            (by simp [hrest])
          simp only [hrest, List.head_cons, bne_eq_false_iff_eq] at hhead
          subst hhead
          rw [hrest] at hsplit hfront
          refine .inl ⟨front.reverse, (name.reverse.takeWhile (· != '.')).reverse,
            ?_, ?_, ?_, ?_, ?_⟩
          · simpa using hfront
          · simpa using hending
          · simpa using hdot
          · simpa using (congrArg List.reverse hsplit).symm
          · simp

theorem splitSuffix_append (name : List Char) :
    (splitSuffix name).1 ++ (splitSuffix name).2 = name := by
  rcases splitSuffix_cases name with ⟨front, ending, -, -, -, hname, hsplit⟩ | hsplit
  · rw [hsplit, hname]
  · rw [hsplit, List.append_nil]

theorem stem_append_suffix (path : Path) : path.stem ++ path.suffix = path.name := by
  rw [stem, suffix, ← String.ofList_append, splitSuffix_append, String.ofList_toList]

/-- What stands before the last dot has no part in the suffix. -/
theorem splitSuffix_of_append {front ending : List Char} (hfront : front ≠ [])
    (hending : ending ≠ []) (hdot : '.' ∉ ending) :
    splitSuffix (front ++ '.' :: ending) = (front, '.' :: ending) := by
  have hall : ∀ c ∈ ending.reverse, (c != '.') = true := by
    intro c hc
    rw [List.mem_reverse] at hc
    simp only [bne_iff_ne, ne_eq]
    rintro rfl
    exact hdot hc
  have hreverse : (front ++ '.' :: ending).reverse = ending.reverse ++ '.' :: front.reverse := by
    simp
  have hlength : ending.length ≠ front.length + (ending.length + 1) := by omega
  unfold splitSuffix
  dsimp only
  rw [hreverse, List.takeWhile_append_of_pos hall, List.dropWhile_append_of_pos hall]
  simp [hfront, hending, hlength]

/-- A name that ends in `.tmp` has this suffix, or none if there is nothing before it. -/
theorem suffix_of_tmp (front : List Char) (h : path.name.toList = front ++ '.' :: ['t', 'm', 'p']) :
    path.suffix = "" ∨ path.suffix = ".tmp" := by
  by_cases hfront : front = []
  · left
    rw [suffix, h, hfront]
    rfl
  · right
    rw [suffix, h, splitSuffix_of_append hfront (by simp) (by decide)]

theorem parts_ne_nil_of_suffix (h : path.suffix ≠ "") : path.parts ≠ [] := by
  intro hnil
  apply h
  rw [suffix, name, hnil]
  rfl

theorem name_ne_up_of_suffix (h : path.suffix ≠ "") : path.name ≠ ".." := by
  intro hup
  apply h
  rw [suffix, hup]
  rfl

/-- Paths that lead to one place have the same last name, unless one of them ends in `..`. -/
theorem name_eq_of_place_eq (hparts : path.parts ≠ []) (hparts' : t.parts ≠ [])
    (hup : path.name ≠ "..") (hup' : t.name ≠ "..") (h : path.place = t.place) :
    path.name = t.name := by
  rw [place_eq_enter hparts, place_eq_enter hparts', Store.Place.enter_of_ne _ hup,
    Store.Place.enter_of_ne _ hup'] at h
  have hnames := congrArg Store.Place.names h
  exact (List.append_singleton_inj.mp hnames).2

/-! ## Names beside the target -/

/-- Another name in the same directory. -/
structure Beside (path t : Path) : Prop where
  parts_ne_nil : path.parts ≠ []
  parts_ne_nil' : t.parts ≠ []
  parent_eq : t.parent = path.parent
  name_ne : t.name ≠ path.name
  name_ne_up : t.name ≠ ".."

/-- It leads to another place. -/
theorem Beside.place_ne (h : Beside path t) : path.place ≠ t.place := by
  rw [place_eq_enter h.parts_ne_nil, place_eq_enter h.parts_ne_nil', h.parent_eq]
  exact path.parent.place.enter_ne (Ne.symm h.name_ne) h.name_ne_up

theorem withName_eq_ok {name : String} :
    path.withName name = .ok t ↔
      path.parts ≠ [] ∧ t = { path with parts := path.parts.dropLast ++ [name] } := by
  unfold withName
  split
  · next h => simp [List.isEmpty_iff.mp h]
  · next h =>
      rw [List.isEmpty_iff] at h
      simp [h, eq_comm]

theorem name_of_withName {name : String} (h : path.withName name = .ok t) : t.name = name := by
  obtain ⟨-, rfl⟩ := withName_eq_ok.mp h
  simp [Path.name]

/-- A longer name is another one, and no `..` if it has more than two characters. -/
theorem beside_of_withName {name : String} (h : path.withName name = .ok t)
    (hlength : name.length = path.name.length + 4) : Beside path t := by
  have hname := name_of_withName h
  obtain ⟨hparts, rfl⟩ := withName_eq_ok.mp h
  refine ⟨hparts, by simp, by simp [parent], ?_, ?_⟩
  · rw [hname]
    rintro rfl
    omega
  · rw [hname]
    rintro rfl
    have : "..".length = 2 := rfl
    omega

end Path

namespace Store

variable {path t : Path}

/-! ## Temporary names -/

theorem temporaryForBytes_eq_ok (h : temporaryForBytes path = .ok t) :
    path.withName (path.name ++ ".tmp") = .ok t := by
  unfold temporaryForBytes Path.withSuffix at h
  split at h
  · cases h
  · rwa [← String.append_assoc, Path.stem_append_suffix] at h

theorem beside_temporaryForBytes (h : temporaryForBytes path = .ok t) : Path.Beside path t := by
  refine Path.beside_of_withName (temporaryForBytes_eq_ok h) ?_
  rw [String.length_append]
  rfl

theorem beside_temporaryForImage (h : temporaryForImage path = .ok t) : Path.Beside path t := by
  refine Path.beside_of_withName h ?_
  have hlength := congrArg String.length path.stem_append_suffix
  rw [String.length_append] at hlength
  have : ".tmp".length = 4 := rfl
  rw [String.length_append, String.length_append]
  omega

/-- The temporary file for bytes has no suffix but `.tmp`, and so it takes no place from a file with
another one. -/
theorem place_ne_temporaryForBytes (h : temporaryForBytes path = .ok t) {p : Path}
    (hsuffix : p.suffix ≠ "") (htmp : p.suffix ≠ ".tmp") : p.place ≠ t.place := by
  intro hplace
  have hbeside := beside_temporaryForBytes h
  have hname := Path.name_eq_of_place_eq (Path.parts_ne_nil_of_suffix hsuffix)
    hbeside.parts_ne_nil' (Path.name_ne_up_of_suffix hsuffix) hbeside.name_ne_up hplace
  have htail : p.name.toList = path.name.toList ++ '.' :: ['t', 'm', 'p'] := by
    rw [hname, Path.name_of_withName (temporaryForBytes_eq_ok h)]
    simp
  rcases Path.suffix_of_tmp _ htail with hnone | htmp'
  · exact hsuffix hnone
  · exact htmp htmp'

/-- There is a temporary name for an image beside every target that has a name. -/
theorem exists_temporaryForImage (h : path.parts ≠ []) : ∃ t, temporaryForImage path = .ok t :=
  ⟨_, Path.withName_eq_ok.mpr ⟨h, rfl⟩⟩

/-- The temporary file of an image keeps the suffix of the target. -/
theorem suffix_temporaryForImage (h : temporaryForImage path = .ok t) (hsuffix : path.suffix ≠ "") :
    t.suffix = path.suffix := by
  obtain ⟨front, ending, -, hending, hdot, -, hsplit⟩ | hsplit :=
    Path.splitSuffix_cases path.name.toList
  · have htail : t.name.toList = (front ++ ['.', 't', 'm', 'p']) ++ '.' :: ending := by
      rw [Path.name_of_withName h, Path.stem, Path.suffix, hsplit]
      simp
    rw [Path.suffix, Path.suffix, htail, Path.splitSuffix_of_append (by simp) hending hdot, hsplit]
  · exact absurd (by rw [Path.suffix, hsplit]) hsuffix

/-- The name without a suffix gets one that decides no format. -/
theorem formatFor_temporary (options : ImageOptions) (h : temporaryForImage path = .ok t) :
    ImageFile.formatFor options t = ImageFile.formatFor options path := by
  by_cases hsuffix : path.suffix = ""
  · have hsuffix' : t.suffix = "" ∨ t.suffix = ".tmp" := by
      refine Path.suffix_of_tmp path.name.toList ?_
      rw [Path.name_of_withName h, ← path.stem_append_suffix, hsuffix]
      simp
    rcases hsuffix' with hsuffix' | hsuffix'
    · simp only [ImageFile.formatFor, Path.lowerSuffix, hsuffix, hsuffix']
    · simp only [ImageFile.formatFor, Path.lowerSuffix, hsuffix, hsuffix']
      rfl
  · simp only [ImageFile.formatFor, Path.lowerSuffix, suffix_temporaryForImage h hsuffix]

end Store

end LoopPainter
