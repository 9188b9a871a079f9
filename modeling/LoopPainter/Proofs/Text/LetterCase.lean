import LoopPainter.Text.LetterCase
import Mathlib

/-!
# What is read as a letter

A text is compared with a word of ASCII letters by the lower-case forms of both.  Three kinds of
characters have an ASCII letter in their lower-case form: the letter itself in either case, the
Kelvin sign, whose form is a `k`, and the dotted capital, whose form has a second character that is
no letter (`lowerBetween_eq_singleton_iff`, `exists_lowerBetween`).  So the lower-case forms of a
text and of a word agree exactly if the text spells the word, character by character
(`lower_eq_lower_iff`).
-/

namespace LoopPainter.Text

variable {c letter : Char} {before after text name : List Char} {n m : ℕ}

/-! ## Letters -/

/-- A character stands for an ASCII letter in either case; the Kelvin sign stands for a `k`. -/
def StandsFor (c letter : Char) : Prop :=
  c = letter.toLower ∨ c = letter.toUpper ∨ letter.toLower = 'k' ∧ c = '\u212a'

/-- A text spells a word if its characters stand for the letters of the word, one by one. -/
def Spells (text name : List Char) : Prop :=
  List.Forall₂ StandsFor text name

theorem standsFor_self (letter : Char) : StandsFor letter letter := by
  by_cases hlower : letter.isLower
  · exact .inl (Char.toLower_eq_of_not_isUpper (Char.not_isUpper_of_isLower hlower)).symm
  · exact .inr (.inl (Char.toUpper_eq_of_not_isLower hlower).symm)

theorem spells_self (name : List Char) : Spells name name :=
  List.forall₂_same.mpr fun letter _ => standsFor_self letter

theorem toNat_lt_of_isAlpha (h : c.isAlpha) : c.toNat < 0x80 := by
  simp only [Char.isAlpha, Char.isUpper, Char.isLower, Bool.or_eq_true, Bool.and_eq_true,
    decide_eq_true_eq, UInt32.le_iff_toNat_le, Char.toNat_val] at h
  change _ ∧ c.toNat ≤ 90 ∨ _ ∧ c.toNat ≤ 122 at h
  omega

theorem toLower_eq_toLower_iff :
    c.toLower = letter.toLower ↔ c = letter.toLower ∨ c = letter.toUpper := by
  constructor
  · intro hsame
    by_cases hupper : c.isUpper
    · right
      have hlower : ¬ c.isLower := Char.not_isLower_of_isUpper hupper
      calc c = c.toUpper := (Char.toUpper_eq_of_not_isLower hlower).symm
        _ = c.toLower.toUpper := (Char.toUpper_toLower_eq_toUpper c).symm
        _ = letter.toLower.toUpper := by rw [hsame]
        _ = letter.toUpper := Char.toUpper_toLower_eq_toUpper letter
    · left
      rw [← hsame, Char.toLower_eq_of_not_isUpper hupper]
  · intro hcase
    rcases hcase with rfl | rfl
    · exact Char.toLower_toLower_eq_toLower letter
    · exact Char.toLower_toUpper_eq_toLower letter

theorem standsFor_iff_of_ascii (hascii : c.toNat < 0x80) :
    StandsFor c letter ↔ c.toLower = letter.toLower := by
  have hkelvin : c ≠ '\u212a' := by
    rintro rfl
    exact absurd hascii (by decide)
  simp only [StandsFor, toLower_eq_toLower_iff, hkelvin, and_false, or_false]

/-- Beyond ASCII only the Kelvin sign stands for a letter. -/
theorem standsFor_iff_of_not_ascii (hascii : ¬ c.toNat < 0x80) (hletter : letter.isAlpha) :
    StandsFor c letter ↔ letter.toLower = 'k' ∧ c = '\u212a' := by
  have hlower : c ≠ letter.toLower := by
    rintro rfl
    exact hascii (toNat_lt_of_isAlpha (by simpa using hletter))
  have hupper : c ≠ letter.toUpper := by
    rintro rfl
    exact hascii (toNat_lt_of_isAlpha (by simpa using hletter))
  simp only [StandsFor, hlower, hupper, false_or]

/-! ## The lower-case form of a character -/

theorem kelvin_of_mem_lowerRuns :
    ∀ r ∈ lowerRuns, r.image < 0x80 → r.first = 0x212a ∧ r.last = 0x212a ∧ r.image = 'k'.toNat := by
  decide +kernel

/-- In the table only the Kelvin sign has an image in ASCII. -/
theorem kelvin_of_findSome?_lowerRuns (h : lowerRuns.findSome? (·.image? n) = some m)
    (hascii : m < 0x80) : n = 0x212a ∧ m = 'k'.toNat := by
  obtain ⟨r, hr, himage⟩ := List.exists_of_findSome?_eq_some h
  unfold CaseRun.image? at himage
  split at himage
  · next hrun =>
      simp only [Bool.and_eq_true, decide_eq_true_eq] at hrun
      have hm : r.image + (n - r.first) = m := Option.some.inj himage
      obtain ⟨hfirst, hlast, hk⟩ := kelvin_of_mem_lowerRuns r hr (by omega)
      omega
  · cases himage

/-- The image of a character beyond ASCII is a letter only if it is the Kelvin sign. -/
theorem kelvin_of_image (hascii : ¬ c.toNat < 0x80) (hletter : letter.isAlpha)
    (h : Char.ofNat ((lowerRuns.findSome? (·.image? c.toNat)).getD c.toNat) = letter.toLower) :
    letter.toLower = 'k' ∧ c = '\u212a' := by
  have hlower : letter.toLower.isLower := by simpa using hletter
  have hsmall : letter.toLower.toNat < 0x80 := toNat_lt_of_isAlpha (by simpa using hletter)
  rw [← h, Char.toNat_ofNat] at hsmall
  split at hsmall
  · cases himage : lowerRuns.findSome? (·.image? c.toNat) with
    | none =>
        rw [himage] at hsmall
        exact absurd hsmall hascii
    | some m =>
        rw [himage] at hsmall h
        obtain ⟨hn, rfl⟩ := kelvin_of_findSome?_lowerRuns himage hsmall
        exact ⟨h.symm, Char.toNat_inj.mp hn⟩
  · next hinvalid =>
      -- a code point that is none would give the character of the code zero
      rw [← h, Char.ofNat, dif_neg hinvalid] at hlower
      exact absurd hlower (by decide)

/-- The lower-case form of a character is a letter exactly if it stands for the letter. -/
theorem lowerChar_eq_singleton_iff (hletter : letter.isAlpha) :
    lowerChar c = [letter.toLower] ↔ StandsFor c letter := by
  by_cases hascii : c.toNat < 0x80
  · rw [lowerChar, if_pos hascii, List.singleton_inj, standsFor_iff_of_ascii hascii]
  · rw [standsFor_iff_of_not_ascii hascii hletter]
    constructor
    · intro h
      rw [lowerChar, if_neg hascii] at h
      split at h
      · exact absurd (congrArg List.length h) (by simp)
      · exact kelvin_of_image hascii hletter (List.singleton_inj.mp h)
    · rintro ⟨hk, rfl⟩
      rw [hk]
      decide +kernel

/-- The capital sigma, wherever it stands, is not read as a letter. -/
theorem lowerBetween_eq_singleton_iff (hletter : letter.isAlpha) :
    lowerBetween before c after = [letter.toLower] ↔ StandsFor c letter := by
  unfold lowerBetween
  split
  · next hsigma =>
      subst hsigma
      have hsmall : letter.toLower.toNat < 0x80 := toNat_lt_of_isAlpha (by simpa using hletter)
      rw [standsFor_iff_of_not_ascii (by decide) hletter, List.singleton_inj]
      constructor
      · intro h
        rw [← h] at hsmall
        split at hsmall <;> exact absurd hsmall (by decide)
      · rintro ⟨-, hkelvin⟩
        exact absurd hkelvin (by decide)
  · exact lowerChar_eq_singleton_iff hletter

/-- The lower-case form of a character is one character, or two of which the second is no letter. -/
theorem exists_lowerBetween (before : List Char) (c : Char) (after : List Char) :
    (∃ d, lowerBetween before c after = [d]) ∨ lowerBetween before c after = ['i', '\u0307'] := by
  unfold lowerBetween lowerChar
  split
  · exact .inl ⟨_, rfl⟩
  · split
    · exact .inl ⟨_, rfl⟩
    · split
      · exact .inr rfl
      · exact .inl ⟨_, rfl⟩

/-! ## The lower-case form of a text -/

/-- Induction on the text: its first character gives the first letter of the word and nothing
else. -/
theorem lowerBehind_eq_iff (hname : ∀ letter ∈ name, letter.isAlpha) :
    lowerBehind before text = name.map Char.toLower ↔ Spells text name := by
  induction text generalizing before name with
  | nil =>
      cases name with
      | nil => simp [lowerBehind, Spells]
      | cons letter name => simp [lowerBehind, Spells]
  | cons c text ih =>
      cases name with
      | nil =>
          rcases exists_lowerBetween before c text with ⟨d, hd⟩ | hd
          · simp [lowerBehind, Spells, hd]
          · simp [lowerBehind, Spells, hd]
      | cons letter name =>
          obtain ⟨hletter, hname⟩ := List.forall_mem_cons.mp hname
          have hspells : Spells (c :: text) (letter :: name) ↔
              lowerBetween before c text = [letter.toLower] ∧
                lowerBehind (c :: before) text = name.map Char.toLower := by
            rw [lowerBetween_eq_singleton_iff hletter, ih hname]
            exact List.forall₂_cons
          rw [hspells, lowerBehind, List.map_cons]
          rcases exists_lowerBetween before c text with ⟨d, hd⟩ | hd
          · rw [hd, List.singleton_append, List.cons.injEq, List.singleton_inj]
          · rw [hd]
            constructor
            · intro h
              cases name with
              | nil => simp at h
              | cons second name =>
                  -- the combining dot would be a letter of the word
                  have hdot : '\u0307' = second.toLower := by
                    simp only [List.cons_append, List.map_cons, List.cons.injEq] at h
                    exact h.2.1
                  have hsecond : second.toLower.isAlpha := by
                    simpa using hname second List.mem_cons_self
                  rw [← hdot] at hsecond
                  exact absurd hsecond (by decide)
            · rintro ⟨h, -⟩
              exact absurd (congrArg List.length h) (by simp)

theorem lower_word (hname : ∀ letter ∈ name, letter.isAlpha) :
    lower name = name.map Char.toLower :=
  (lowerBehind_eq_iff hname).mpr (spells_self name)

/-- A text and a word of letters have the same lower-case form exactly if the text spells the
word. -/
theorem lower_eq_lower_iff (hname : ∀ letter ∈ name, letter.isAlpha) :
    lower text = lower name ↔ Spells text name := by
  rw [lower_word hname]
  exact lowerBehind_eq_iff hname

end LoopPainter.Text
