import LoopPainter.Color
import LoopPainter.Heading
import LoopPainter.Proofs.Text.LetterCase

/-!
# How words are read

Trimming removes the blanks at both ends and no more (`exists_trimBy`), whatever they are and
however many (`trimBy_append`).  What is left is compared with the words in lower case, so it has to
spell one of them (`Lettered.find?_eq_some_iff`), and it spells at most one
(`Lettered.eq_of_spells`).

The words of colors and of headings are made of letters and differ in more than letter case.  What
this means for reading them is put together in `ReadsWords`.
-/

namespace LoopPainter

namespace Text

variable {p : Char → Bool} {c letter : Char} {s before text after name : List Char}

/-! ## Trimming -/

/-- Only blanks. -/
def Blanks (s : List Char) : Prop :=
  ∀ c ∈ s, isBlank c = true

theorem dropWhile_eq_self (h : ∀ c ∈ s, p c = false) : s.dropWhile p = s := by
  cases s with
  | nil => rfl
  | cons c s => exact List.dropWhile_cons_of_neg (by simp [h c List.mem_cons_self])

theorem trimBy_append (hbefore : ∀ c ∈ before, p c = true) (htext : ∀ c ∈ text, p c = false)
    (hafter : ∀ c ∈ after, p c = true) : trimBy p (before ++ text ++ after) = text := by
  have hleft : (before ++ text ++ after).dropWhile p = (text ++ after).dropWhile p := by
    rw [List.append_assoc, List.dropWhile_append_of_pos hbefore]
  have hright : (text ++ after).reverse.dropWhile p = text.reverse := by
    rw [List.reverse_append, List.dropWhile_append_of_pos (by simpa using hafter)]
    exact dropWhile_eq_self (by simpa using htext)
  rw [trimBy, hleft]
  cases text with
  | nil =>
      rw [List.nil_append, List.dropWhile_eq_nil_iff.mpr hafter]
      rfl
  | cons c text =>
      rw [List.cons_append, List.dropWhile_cons_of_neg (by simp [htext c List.mem_cons_self]),
        ← List.cons_append, hright, List.reverse_reverse]

/-- Only what is to be trimmed is removed. -/
theorem exists_trimBy (p : Char → Bool) (s : List Char) : ∃ before after,
    s = before ++ trimBy p s ++ after ∧ (∀ c ∈ before, p c = true) ∧ ∀ c ∈ after, p c = true := by
  have hend (t : List Char) :
      t = (t.reverse.dropWhile p).reverse ++ (t.reverse.takeWhile p).reverse := by
    rw [← List.reverse_append, List.takeWhile_append_dropWhile, List.reverse_reverse]
  refine ⟨s.takeWhile p, ((s.dropWhile p).reverse.takeWhile p).reverse, ?_, ?_, ?_⟩
  · calc s = s.takeWhile p ++ s.dropWhile p := List.takeWhile_append_dropWhile.symm
      _ = _ := by rw [List.append_assoc, trimBy, ← hend]
  · intro c hc
    exact List.mem_takeWhile_imp hc
  · intro c hc
    exact List.mem_takeWhile_imp (List.mem_reverse.mp hc)

theorem isBlank_eq_false_of_isAlpha (h : c.isAlpha) : isBlank c = false := by
  have hrange : 65 ≤ c.toNat ∧ c.toNat ≤ 122 := by
    simp only [Char.isAlpha, Char.isUpper, Char.isLower, Bool.or_eq_true, Bool.and_eq_true,
      decide_eq_true_eq, UInt32.le_iff_toNat_le, Char.toNat_val] at h
    change 65 ≤ c.toNat ∧ c.toNat ≤ 90 ∨ 97 ≤ c.toNat ∧ c.toNat ≤ 122 at h
    omega
  simp only [isBlank, isSpace, Bool.or_eq_false_iff, Bool.and_eq_false_iff, decide_eq_false_iff_not,
    beq_eq_false_iff_ne]
  omega

theorem StandsFor.isBlank_eq_false (h : StandsFor c letter) (hletter : letter.isAlpha) :
    isBlank c = false := by
  rcases h with rfl | rfl | ⟨-, rfl⟩
  · exact isBlank_eq_false_of_isAlpha (by simpa using hletter)
  · exact isBlank_eq_false_of_isAlpha (by simpa using hletter)
  · decide

theorem Spells.isBlank_eq_false (h : Spells text name) (hname : ∀ letter ∈ name, letter.isAlpha) :
    ∀ c ∈ text, isBlank c = false := by
  induction h with
  | nil => exact nofun
  | cons hstands _ ih =>
      obtain ⟨hletter, hname⟩ := List.forall_mem_cons.mp hname
      exact List.forall_mem_cons.mpr ⟨hstands.isBlank_eq_false hletter, ih hname⟩

theorem strip_append (hbefore : Blanks before) (htext : Spells text name) (hafter : Blanks after)
    (hname : ∀ letter ∈ name, letter.isAlpha) : strip (before ++ text ++ after) = text :=
  trimBy_append hbefore (htext.isBlank_eq_false hname) hafter

end Text

namespace Vocabulary

open Text

variable {α : Type} [Vocabulary α] {a b : α} {s : List Char} {t : String}

theorem mem_members (a : α) : a ∈ members α :=
  List.mem_map.mpr ⟨ordinal a, List.mem_finRange _, ofOrdinal_ordinal a⟩

/-! ## Words of letters -/

/-- The words are made of ASCII letters, and no two of them are the same in lower case. -/
structure Lettered (α : Type) [Vocabulary α] : Prop where
  isAlpha_word : ∀ a : α, ∀ letter ∈ (word a).toList, letter.isAlpha
  apart : ((members α).map fun a => lower (word a).toList).Nodup

theorem lettered_color : Lettered Color where
  isAlpha_word := by
    intro a
    rw [← List.all_eq_true]
    cases a <;> decide
  apart := by decide +kernel

theorem lettered_heading : Lettered Heading where
  isAlpha_word := by
    intro a
    rw [← List.all_eq_true]
    cases a <;> decide
  apart := by decide +kernel

namespace Lettered

/-- A text spells the word of one member at most. -/
theorem eq_of_spells (h : Lettered α) (ha : Spells s (word a).toList)
    (hb : Spells s (word b).toList) : a = b := by
  have hsame : lower (word a).toList = lower (word b).toList := by
    rw [← (lower_eq_lower_iff (h.isAlpha_word a)).mpr ha,
      (lower_eq_lower_iff (h.isAlpha_word b)).mpr hb]
  exact List.inj_on_of_nodup_map h.apart (mem_members a) (mem_members b) hsame

theorem find?_eq_some_iff (h : Lettered α) :
    find? α s = some a ↔ Spells (strip s) (word a).toList := by
  have hspells (b : α) : (lower (word b).toList == lower (strip s)) = true ↔
      Spells (strip s) (word b).toList := by
    rw [beq_iff_eq, eq_comm, lower_eq_lower_iff (h.isAlpha_word b)]
  have hfound {b : α} (hfind : find? α s = some b) : Spells (strip s) (word b).toList := by
    rw [find?] at hfind
    exact (hspells b).mp (List.find?_eq_some_iff_append.mp hfind).1
  constructor
  · exact hfound
  · intro ha
    cases hfind : find? α s with
    | none => exact absurd ((hspells a).mpr ha) (List.find?_eq_none.mp hfind a (mem_members a))
    | some b => rw [h.eq_of_spells (hfound hfind) ha]

end Lettered

theorem read_eq_ok_iff : read α t = .ok a ↔ find? α t.toList = some a := by
  unfold read
  cases find? α t.toList <;> simp

theorem read_eq_error_iff :
    read α t = .error (.unknownWord (noun α) t) ↔ find? α t.toList = none := by
  unfold read
  cases find? α t.toList <;> simp

/-! ## Reading -/

/-- How the words of a vocabulary are read. -/
structure ReadsWords (α : Type) [Vocabulary α] (noun : String) : Prop where
  /-- What is read as a member spells its word, once the blanks at both ends are removed. -/
  read_iff_strip : ∀ (t : String) (a : α),
    read α t = .ok a ↔ Spells (strip t.toList) (word a).toList
  /-- Any blanks may stand before and after a text that spells the word, and nothing else may. -/
  read_iff_padded : ∀ (t : String) (a : α), read α t = .ok a ↔
    ∃ before text after, t = String.ofList (before ++ text ++ after) ∧
      Blanks before ∧ Blanks after ∧ Spells text (word a).toList
  /-- The word itself is read. -/
  read_word : ∀ a : α, read α (word a) = .ok a
  /-- No text spells the words of two members. -/
  unambiguous : ∀ (s : List Char) (a b : α),
    Spells s (word a).toList → Spells s (word b).toList → a = b
  /-- A text that spells no word is refused, and shown in the complaint. -/
  refused : ∀ t : String, (∀ a : α, ¬ Spells (strip t.toList) (word a).toList) ↔
    read α t = .error (.unknownWord noun t)

theorem Lettered.readsWords (h : Lettered α) : ReadsWords α (noun α) := by
  have hstrip (t : String) (a : α) :
      read α t = .ok a ↔ Spells (strip t.toList) (word a).toList := by
    rw [read_eq_ok_iff, h.find?_eq_some_iff]
  refine ⟨hstrip, ?_, ?_, fun _ _ _ => h.eq_of_spells, ?_⟩
  · intro t a
    rw [hstrip]
    constructor
    · intro hspells
      obtain ⟨before, after, heq, hbefore, hafter⟩ := exists_trimBy isBlank t.toList
      exact ⟨before, strip t.toList, after, by rw [strip, ← heq, String.ofList_toList], hbefore,
        hafter, hspells⟩
    · rintro ⟨before, text, after, rfl, hbefore, hafter, hspells⟩
      rwa [String.toList_ofList, strip_append hbefore hspells hafter (h.isAlpha_word a)]
  · intro a
    have hnone : Blanks [] := nofun
    have hword := strip_append hnone (spells_self (word a).toList) hnone (h.isAlpha_word a)
    rw [List.nil_append, List.append_nil] at hword
    rw [hstrip, hword]
    exact spells_self _
  · intro t
    rw [read_eq_error_iff, Option.eq_none_iff_forall_ne_some]
    exact forall_congr' fun a => not_congr h.find?_eq_some_iff.symm

/-- Colors and headings are read by their words, in letters of either case or with a Kelvin sign for
a `k`, and with any blanks around them. Everything else is refused. -/
theorem readsWords_color_heading : ReadsWords Color "color" ∧ ReadsWords Heading "direction" :=
  ⟨lettered_color.readsWords, lettered_heading.readsWords⟩

example : read Color " bLAC\u212a\u2003" = .ok .black := by decide +kernel

end Vocabulary

end LoopPainter
