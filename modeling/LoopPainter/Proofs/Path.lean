import LoopPainter.Path
import Mathlib.Tactic.Common

/-!
# Paths written and read

The names of a path that was read are neither empty nor `.` and hold no slash (`IsName`).  A path
with such names is read again from its text (`ofString_toString`), and its text holds no characters
but those that it was read from, slashes and dots (`mem_toString_ofString`).
-/

namespace LoopPainter.Path

variable {c : Char} {s part : List Char} {parts : List (List Char)} {p : Path} {name text : String}

/-! ## Cutting at slashes -/

theorem splitSlashes_ne_nil (s : List Char) : splitSlashes s ≠ [] := by
  cases s with
  | nil => exact List.cons_ne_nil _ _
  | cons c s =>
      rw [splitSlashes]
      split
      · exact List.cons_ne_nil _ _
      · split <;> exact List.cons_ne_nil _ _

theorem splitSlashes_slash (s : List Char) : splitSlashes ('/' :: s) = [] :: splitSlashes s := rfl

/-- A character that is no slash belongs to the first part. -/
theorem splitSlashes_cons (hc : c ≠ '/') (s : List Char) :
    ∃ part parts, splitSlashes s = part :: parts ∧
      splitSlashes (c :: s) = (c :: part) :: parts := by
  obtain ⟨part, parts, heq⟩ := List.exists_cons_of_ne_nil (splitSlashes_ne_nil s)
  refine ⟨part, parts, heq, ?_⟩
  rw [splitSlashes, if_neg (by simpa using hc), heq]

theorem mem_of_mem_splitSlashes (hpart : part ∈ splitSlashes s) (hc : c ∈ part) :
    c ∈ s ∧ c ≠ '/' := by
  induction s generalizing part with
  | nil =>
      obtain rfl := List.mem_singleton.mp hpart
      cases hc
  | cons d s ih =>
      by_cases hd : d = '/'
      · subst hd
        rw [splitSlashes_slash, List.mem_cons] at hpart
        rcases hpart with rfl | hpart
        · cases hc
        · exact (ih hpart hc).imp_left (List.mem_cons_of_mem _)
      · obtain ⟨first, rest, heq, heq'⟩ := splitSlashes_cons hd s
        rw [heq] at ih
        rw [heq', List.mem_cons] at hpart
        rcases hpart with rfl | hpart
        · rcases List.mem_cons.mp hc with rfl | hc
          · exact ⟨List.mem_cons_self, hd⟩
          · exact (ih List.mem_cons_self hc).imp_left (List.mem_cons_of_mem _)
        · exact (ih (List.mem_cons_of_mem _ hpart) hc).imp_left (List.mem_cons_of_mem _)

theorem splitSlashes_of_not_mem (h : '/' ∉ part) : splitSlashes part = [part] := by
  induction part with
  | nil => rfl
  | cons c part ih =>
      rw [List.mem_cons, not_or] at h
      rw [splitSlashes, if_neg (by simpa using Ne.symm h.1), ih h.2]

theorem splitSlashes_append (h : '/' ∉ part) (s : List Char) :
    splitSlashes (part ++ '/' :: s) = part :: splitSlashes s := by
  induction part with
  | nil => exact splitSlashes_slash s
  | cons c part ih =>
      rw [List.mem_cons, not_or] at h
      rw [List.cons_append, splitSlashes, if_neg (by simpa using Ne.symm h.1), ih h.2]

/-- Parts that were joined by slashes are cut at them again. -/
theorem splitSlashes_intercalate (h : ∀ part ∈ parts, '/' ∉ part) (hne : parts ≠ []) :
    splitSlashes (['/'].intercalate parts) = parts := by
  induction parts with
  | nil => exact absurd rfl hne
  | cons part parts ih =>
      rw [List.forall_mem_cons] at h
      cases parts with
      | nil => simpa using splitSlashes_of_not_mem h.1
      | cons next parts =>
          rw [List.intercalate_cons_cons, List.append_assoc]
          exact (splitSlashes_append h.1 _).trans (congrArg _ (ih h.2 (List.cons_ne_nil _ _)))

theorem mem_intercalate_slash (h : c ∈ ['/'].intercalate parts) :
    c = '/' ∨ ∃ part ∈ parts, c ∈ part := by
  induction parts with
  | nil => cases h
  | cons part parts ih =>
      cases parts with
      | nil => exact .inr ⟨part, List.mem_cons_self, by simpa using h⟩
      | cons next parts =>
          rw [List.intercalate_cons_cons, List.mem_append, List.mem_append, List.mem_singleton] at h
          rcases h with (h | rfl) | h
          · exact .inr ⟨part, List.mem_cons_self, h⟩
          · exact .inl rfl
          · exact (ih h).imp_right fun ⟨q, hq, hc⟩ => ⟨q, List.mem_cons_of_mem _ hq, hc⟩

/-! ## Names -/

/-- A name that reading keeps. -/
structure IsName (part : List Char) : Prop where
  ne_nil : part ≠ []
  ne_dot : part ≠ ['.']
  noSlash : '/' ∉ part

theorem isName_iff : IsName part ↔ '/' ∉ part ∧ (part != [] && part != ['.']) = true := by
  simp only [Bool.and_eq_true, bne_iff_ne]
  exact ⟨fun h => ⟨h.noSlash, h.ne_nil, h.ne_dot⟩, fun h => ⟨h.2.1, h.2.2, h.1⟩⟩

/-- The names of a path that was read come from its text. -/
theorem mem_parts_ofString (h : name ∈ (ofString text).parts) :
    IsName name.toList ∧ ∀ c ∈ name.toList, c ∈ text.toList := by
  obtain ⟨part, hpart, rfl⟩ := List.mem_map.mp h
  obtain ⟨hsplit, hkept⟩ := List.mem_filter.mp hpart
  rw [String.toList_ofList]
  have hchars (c : Char) (hc : c ∈ part) := mem_of_mem_splitSlashes hsplit hc
  exact ⟨isName_iff.mpr ⟨fun hslash => (hchars _ hslash).2 rfl, hkept⟩,
    fun c hc => (hchars c hc).1⟩

/-! ## Reading what was written -/

/-- The text of a path: its root and its names, or a dot. -/
theorem toList_toString (p : Path) :
    (p.root = .relative ∧ p.parts = [] ∧ p.toString.toList = ['.']) ∨
      p.toString.toList =
        p.root.text.toList ++ ['/'].intercalate (p.parts.map String.toList) := by
  unfold toString
  split
  · next hroot hparts => exact .inl ⟨hroot, hparts, rfl⟩
  · exact .inr (by rw [String.toList_append, String.toList_intercalate]; rfl)

theorem head_intercalate (h : ∀ part ∈ parts, IsName part) :
    (['/'].intercalate parts = [] ∧ parts = []) ∨
      ∃ c rest, ['/'].intercalate parts = c :: rest ∧ c ≠ '/' := by
  cases parts with
  | nil => exact .inl ⟨rfl, rfl⟩
  | cons part parts =>
      have hpart := h part List.mem_cons_self
      obtain ⟨c, rest, rfl⟩ := List.exists_cons_of_ne_nil hpart.ne_nil
      have hc : c ≠ '/' := fun heq => hpart.noSlash (heq ▸ List.mem_cons_self)
      cases parts with
      | nil => exact .inr ⟨c, rest, by simp, hc⟩
      | cons next parts => exact .inr ⟨c, _, by rw [List.intercalate_cons_cons]; rfl, hc⟩

theorem filter_splitSlashes (h : ∀ part ∈ parts, IsName part) :
    (splitSlashes (['/'].intercalate parts)).filter (fun part => part != [] && part != ['.']) =
      parts := by
  by_cases hne : parts = []
  · subst hne
    rfl
  · rw [splitSlashes_intercalate (fun part hpart => (h part hpart).noSlash) hne,
      List.filter_eq_self]
    exact fun part hpart => (isName_iff.mp (h part hpart)).2

/-- A root and names that are written are read again. -/
theorem ofChars_append (root : Root) (h : ∀ part ∈ parts, IsName part)
    (hne : root = .relative → parts ≠ []) :
    ofChars (root.text.toList ++ ['/'].intercalate parts) = ⟨root, parts.map String.ofList⟩ := by
  have hfilter := filter_splitSlashes h
  have hslashes (s : List Char) :
      (splitSlashes ('/' :: s)).filter (fun part => part != [] && part != ['.']) =
        (splitSlashes s).filter (fun part => part != [] && part != ['.']) := rfl
  have hroot : rootOf (root.text.toList ++ ['/'].intercalate parts) = root := by
    rcases head_intercalate h with ⟨hnil, rfl⟩ | ⟨c, rest, heq, hc⟩
    · rw [hnil]
      cases root with
      | relative => exact absurd rfl (hne rfl)
      | slash => rfl
      | doubleSlash => rfl
    · rw [heq]
      cases root <;> simp [Root.text, rootOf, hc]
  rw [ofChars, hroot]
  congr 2
  cases root with
  | relative => exact hfilter
  | slash => exact (hslashes _).trans hfilter
  | doubleSlash => exact ((hslashes _).trans (hslashes _)).trans hfilter

/-- A path whose names reading keeps is read again from its text. -/
theorem ofString_toString (h : ∀ name ∈ p.parts, IsName name.toList) :
    ofString p.toString = p := by
  obtain ⟨root, parts⟩ := p
  have hmap : (parts.map String.toList).map String.ofList = parts := by
    simp
  rcases toList_toString ⟨root, parts⟩ with ⟨hroot, hparts, htext⟩ | htext
  · rw [ofString, htext]
    dsimp only at hroot hparts
    subst hroot hparts
    rfl
  · rw [ofString, htext]
    by_cases hnil : root = .relative ∧ parts = []
    · obtain ⟨rfl, rfl⟩ := hnil
      rfl
    · rw [ofChars_append root (by simpa using h)]
      · rw [hmap]
      · intro hroot hparts
        exact hnil ⟨hroot, List.map_eq_nil_iff.mp hparts⟩

theorem ofString_toString_ofString (text : String) :
    ofString (ofString text).toString = ofString text :=
  ofString_toString fun _ h => (mem_parts_ofString h).1

/-- The text of a path that was read holds nothing new but slashes and dots. -/
theorem mem_toString_ofString (h : c ∈ (ofString text).toString.toList) :
    c ∈ text.toList ∨ c = '/' ∨ c = '.' := by
  rcases toList_toString (ofString text) with ⟨-, -, htext⟩ | htext
  · rw [htext, List.mem_singleton] at h
    exact .inr (.inr h)
  · rw [htext, List.mem_append] at h
    rcases h with h | h
    · have hroot (root : Root) : root.text.toList.all (· == '/') = true := by
        cases root <;> rfl
      exact .inr (.inl (eq_of_beq (List.all_eq_true.mp (hroot _) c h)))
    · rcases mem_intercalate_slash h with rfl | ⟨part, hpart, hc⟩
      · exact .inr (.inl rfl)
      · obtain ⟨name, hname, rfl⟩ := List.mem_map.mp hpart
        exact .inl ((mem_parts_ofString hname).2 c hc)

end LoopPainter.Path
