import LoopPainter.Proofs.Text.Digits
import LoopPainter.Proofs.Yaml.Plain
import LoopPainter.Yaml.Value
import Mathlib.Data.List.TakeWhile

/-!
# Whole numbers as plain scalars

A whole number is written in decimal.  Its text has the form of a whole number and of nothing else
(`ofPlain_intDecimal`), and is read as the number that it stands for, unless the number is too long
(`readInteger_intDecimal`).
-/

namespace LoopPainter.Yaml

open Text

variable {c : Char} {s : List Char} {i : ℤ} {n : ℕ}

/-! ## The digits of a number -/

/-- Zero, or digits without a zero in front. -/
theorem decimal_cases (n : ℕ) :
    (n = 0 ∧ decimal n = ['0']) ∨
      ∃ c ds, decimal n = c :: ds ∧ ('1' ≤ c ∧ c ≤ '9') ∧ ∀ d ∈ ds, isDigit d = true := by
  rcases Nat.eq_zero_or_pos n with rfl | hpos
  · exact .inl ⟨rfl, rfl⟩
  · obtain ⟨d, ds, hd, hlt, heq⟩ := exists_cons_natDigits (show 2 ≤ 10 by decide) hpos
    have hlead : ∀ d < 10, 0 < d → '1' ≤ digitChar d ∧ digitChar d ≤ '9' := by decide
    refine .inr ⟨digitChar d, ds, heq, hlead d hlt hd, fun c hc => ?_⟩
    exact isDigit_of_mem_decimal (n := n) (by rw [decimal, heq]; exact List.mem_cons_of_mem _ hc)

/-- The sign of a whole number and its digits. -/
theorem intDecimal_cases (i : ℤ) :
    (∃ n : ℕ, i = n ∧ intDecimal i = decimal n) ∨
      ∃ n : ℕ, 0 < n ∧ i = -(n : ℤ) ∧ intDecimal i = '-' :: decimal n := by
  cases i with
  | ofNat n => exact .inl ⟨n, rfl, rfl⟩
  | negSucc n => exact .inr ⟨n + 1, n.succ_pos, rfl, rfl⟩

theorem splitSign_intDecimal (i : ℤ) : (splitSign (intDecimal i)).2 = decimal i.natAbs := by
  cases i with
  | ofNat n =>
      obtain ⟨c, ds, hds⟩ := List.exists_cons_of_ne_nil (decimal_ne_nil n)
      have hc : isDigit c = true := isDigit_of_mem_decimal (n := n) (by simp [hds])
      change (splitSign (decimal n)).2 = decimal n
      rw [hds, splitSign_of_isDigit hc]
  | negSucc n => rfl

theorem isDigit_or_minus_of_mem (h : c ∈ intDecimal i) : isDigit c = true ∨ c = '-' := by
  rcases intDecimal_cases i with ⟨n, -, heq⟩ | ⟨n, -, -, heq⟩
  · exact .inl (isDigit_of_mem_decimal (heq ▸ h))
  · rw [heq, List.mem_cons] at h
    exact h.symm.imp_left isDigit_of_mem_decimal

theorem intDecimal_ne_nil (i : ℤ) : intDecimal i ≠ [] := by
  rcases intDecimal_cases i with ⟨n, -, heq⟩ | ⟨n, -, -, heq⟩
  · exact heq ▸ decimal_ne_nil n
  · exact heq ▸ List.cons_ne_nil _ _

theorem ne_of_mem_intDecimal {q : Char} (h : c ∈ intDecimal i) (hq : isDigit q = false ∧ q ≠ '-') :
    c ≠ q := by
  rcases isDigit_or_minus_of_mem h with h | rfl
  · exact ne_of_isDigit h hq.1
  · exact hq.2.symm

theorem word_intDecimal (i : ℤ) : Word (intDecimal i) where
  nonempty := intDecimal_ne_nil i
  chars := by
    intro c hc
    have hne (q : Char) (hq : isDigit q = false ∧ q ≠ '-') := ne_of_mem_intDecimal hc hq
    refine ⟨isGap_eq_false_iff.mpr ⟨hne _ (by decide), hne _ (by decide), ?_, hne _ (by decide)⟩,
      hne _ (by decide)⟩
    simp only [isBreak, Bool.or_eq_false_iff, beq_eq_false_iff_ne]
    exact ⟨⟨⟨⟨hne _ (by decide), hne _ (by decide)⟩, hne _ (by decide)⟩, hne _ (by decide)⟩,
      hne _ (by decide)⟩

/-! ## Its form -/

theorem hasInnerIndicator_eq_false (h : ∀ c ∈ s, c ≠ ':' ∧ c ≠ '#') :
    hasInnerIndicator s = false := by
  induction s with
  | nil => rfl
  | cons a s ih =>
      rw [List.forall_mem_cons] at h
      cases s with
      | nil => rfl
      | cons b rest =>
          obtain ⟨hcolon, hhash⟩ := h.2 b List.mem_cons_self
          rw [hasInnerIndicator, ih h.2, isInnerIndicator, beq_false_of_ne hcolon,
            beq_false_of_ne hhash]
          rfl

theorem isLeadingIndicator_of_isDigit (h : isDigit c = true) (after : Char) :
    isLeadingIndicator c after = false := by
  have hne (q : Char) (hq : isDigit q = false) : (c = q) = False := eq_false (ne_of_isDigit h hq)
  simp (disch := decide) [isLeadingIndicator, hne]

theorem hasIndicator_intDecimal (i : ℤ) : hasIndicator (intDecimal i) = false := by
  have hinner := hasInnerIndicator_eq_false (s := intDecimal i) fun c hc =>
    ⟨ne_of_mem_intDecimal hc (by decide), ne_of_mem_intDecimal hc (by decide)⟩
  have hfirst (n : ℕ) : ∃ c ds, decimal n = c :: ds ∧ isDigit c = true := by
    obtain ⟨c, ds, hds⟩ := List.exists_cons_of_ne_nil (decimal_ne_nil n)
    exact ⟨c, ds, hds, isDigit_of_mem_decimal (n := n) (by simp [hds])⟩
  have hne {c : Char} (hc : isDigit c = true) : '-' ≠ c ∧ '.' ≠ c :=
    ⟨(ne_of_isDigit hc (by decide)).symm, (ne_of_isDigit hc (by decide)).symm⟩
  rcases intDecimal_cases i with ⟨n, -, heq⟩ | ⟨n, -, -, heq⟩
  · obtain ⟨c, ds, hds, hc⟩ := hfirst n
    rw [heq, hds] at hinner ⊢
    simp [hasIndicator, hinner, List.isPrefixOf, hne hc, isLeadingIndicator_of_isDigit hc]
  · obtain ⟨c, ds, hds, hc⟩ := hfirst n
    have hgap : isGap c = false := ((word_intDecimal i).chars c (by simp [heq, hds])).1
    rw [heq, hds] at hinner ⊢
    simp [hasIndicator, hinner, List.isPrefixOf, hne hc, isLeadingIndicator, hgap]

theorem anyNeighbors_eq_false {p : Char → Char → Bool} (h : ∀ a ∈ s, ∀ b, p a b = false) :
    anyNeighbors p s = false := by
  induction s with
  | nil => rfl
  | cons a s ih =>
      rw [List.forall_mem_cons] at h
      cases s with
      | nil => rfl
      | cons b rest => rw [anyNeighbors, h.1 b, ih h.2]; rfl

/-- A whole number can be written without quotes. -/
theorem unquoted_intDecimal (i : ℤ) : Unquoted (intDecimal i) := by
  have hplain : ∀ c ∈ intDecimal i, isSpecial c = false ∧ isSpaceOrBreak c = false ∧
      isWrittenBreak c = false := by
    intro c hc
    -- digits and the minus are no special characters, no blanks and no breaks
    rcases isDigit_or_minus_of_mem hc with h | rfl
    · have hne (q : Char) (hq : isDigit q = false) : (c = q) = False :=
        eq_false (ne_of_isDigit h hq)
      refine ⟨?_, ?_, ?_⟩
      · simp only [isDigit, Bool.and_eq_true, decide_eq_true_eq, Char.le_def,
          UInt32.le_iff_toNat_le] at h
        have hlow : 48 ≤ c.toNat := h.1
        have hhigh : c.toNat ≤ 57 := h.2
        simp only [isSpecial, Bool.and_eq_false_iff, Bool.not_eq_false', Bool.or_eq_true,
          Bool.and_eq_true, decide_eq_true_eq]
        omega
      · simp (disch := decide) [isSpaceOrBreak, isWrittenBreak, hne]
      · simp (disch := decide) [isWrittenBreak, hne]
    · decide
  refine ⟨⟨fun c hc => (hplain c hc).1, ?_, ?_⟩, intDecimal_ne_nil i, ?_, ?_,
    fun c hc => (hplain c hc).2.2, hasIndicator_intDecimal i⟩
  · refine anyNeighbors_eq_false fun a ha b => ?_
    rw [beq_false_of_ne (ne_of_mem_intDecimal ha (by decide))]
    rfl
  · exact anyNeighbors_eq_false fun a ha b => by rw [(hplain a ha).2.2]; rfl
  · exact fun c hc => (hplain c (List.mem_of_head? hc)).2.1
  · exact fun c hc => (hplain c (List.mem_of_getLast? hc)).2.1

theorem isInteger_intDecimal (i : ℤ) : Tag.isInteger (intDecimal i) = true := by
  have hsign := splitSign_intDecimal i
  rw [Tag.isInteger]
  dsimp only
  rcases decimal_cases i.natAbs with ⟨-, heq⟩ | ⟨c, ds, heq, hlead, hds⟩
  · rw [hsign, heq]
    rfl
  · rw [hsign, heq]
    split
    · rfl
    · next h => cases h; exact absurd hlead.1 (by decide)
    · next h => cases h; exact absurd hlead.1 (by decide)
    · next h => cases h; exact absurd hlead.1 (by decide)
    · have hrun : ds.all Tag.isDigitOr_ = true := by
        rw [List.all_eq_true]
        intro d hd
        rw [Tag.isDigitOr_, hds d hd, Bool.true_or]
      rw [Tag.isPositiveRun, hrun, decide_eq_true hlead.1, decide_eq_true hlead.2]
      rfl

theorem withoutFinalBreak_intDecimal (i : ℤ) :
    withoutFinalBreak (intDecimal i) = intDecimal i := by
  refine if_neg fun h => ?_
  rw [Bool.and_eq_true, beq_iff_eq] at h
  exact ne_of_mem_intDecimal (List.mem_of_getLast? h.2) (by decide) rfl

theorem ofPlain_intDecimal (i : ℤ) : Tag.ofPlain (intDecimal i) = .int := by
  obtain ⟨c, s, heq⟩ := List.exists_cons_of_ne_nil (intDecimal_ne_nil i)
  have hc : isDigit c = true ∨ c = '-' := isDigit_or_minus_of_mem (i := i) (by simp [heq])
  have htruth : Tag.isTruthValue (intDecimal i) = false := by
    have hne (w : String) (hw : w.toList.all (fun c => !isDigit c && c != '-') = true) :
        (String.ofList (intDecimal i) = w) = False := by
      refine eq_false fun hsame => ?_
      have hmem : c ∈ w.toList := by
        rw [← hsame, String.toList_ofList, heq]
        exact List.mem_cons_self
      have hother := List.all_eq_true.mp hw c hmem
      rcases hc with hdigit | rfl
      · simp [hdigit] at hother
      · cases hother
    simp (disch := decide) [Tag.isTruthValue, hne]
  -- without a point it is no decimal fraction
  have hfloat : Tag.isFloat (intDecimal i) = false := by
    have hpoint : (decimal i.natAbs).dropWhile (· != '.') = [] := by
      rw [List.dropWhile_eq_nil_iff]
      exact fun c hc => bne_iff_ne.mpr (ne_of_isDigit (isDigit_of_mem_decimal hc) (by decide))
    rw [Tag.isFloat, splitSign_intDecimal]
    dsimp only
    rw [hpoint]
  rw [Tag.ofPlain, withoutFinalBreak_intDecimal, htruth, hfloat, isInteger_intDecimal]
  rfl

/-! ## Its value -/

theorem readInBase_decimal (h : isTooLong (n : ℤ) = false) :
    readInBase 10 (decimal n) = .ok (n : ℤ) := by
  rw [readInBase, if_pos rfl, readInteger?_decimal h]

/-- The value of the digits of a number, behind its sign. -/
theorem readDigits_decimal (h : isTooLong (n : ℤ) = false) (sign : ℤ → ℤ) (hzero : sign 0 = 0) :
    (match decimal n with
      | ['0'] => .ok 0
      | '0' :: 'b' :: ds => (readInBase 2 ds).map sign
      | '0' :: 'x' :: ds => (readInBase 16 ds).map sign
      | [] => .error .emptyNumber
      | '0' :: _ => (readInBase 8 (decimal n)).map sign
      | s =>
        if s.contains ':' then do
          let parts ← (Tag.splitColons s).mapM (readInBase 10)
          return sign (ofSixtieths parts)
        else (readInBase 10 s).map sign : Reads Int) = .ok (sign n) := by
  rcases decimal_cases n with ⟨rfl, heq⟩ | ⟨c, ds, heq, hlead, hds⟩
  · rw [heq]
    exact congrArg Except.ok hzero.symm
  -- without a leading zero and without colons it is read in base ten
  · have hcolon : ¬ (c :: ds).contains ':' = true := by
      rw [List.contains_iff_mem, ← heq]
      exact fun hmem => ne_of_isDigit (isDigit_of_mem_decimal hmem) (by decide) rfl
    have hread : readInBase 10 (c :: ds) = .ok (n : ℤ) := heq ▸ readInBase_decimal h
    rw [heq]
    split
    · next h => cases h; exact absurd hlead.1 (by decide)
    · next h => cases h; exact absurd hlead.1 (by decide)
    · next h => cases h; exact absurd hlead.1 (by decide)
    · next h => cases h
    · next h => cases h; exact absurd hlead.1 (by decide)
    · rw [if_neg hcolon, hread]
      rfl

theorem readInteger_intDecimal (h : isTooLong i = false) :
    readInteger (String.ofList (intDecimal i)) = .ok i := by
  have hplain : withoutUnderscores (String.ofList (intDecimal i)) = intDecimal i := by
    rw [withoutUnderscores, String.toList_ofList, List.filter_eq_self]
    exact fun c hc => bne_iff_ne.mpr (ne_of_mem_intDecimal hc (by decide))
  rw [readInteger, hplain]
  rcases intDecimal_cases i with ⟨n, rfl, heq⟩ | ⟨n, hpos, rfl, heq⟩
  · obtain ⟨c, ds, hds⟩ := List.exists_cons_of_ne_nil (decimal_ne_nil n)
    have hc : isDigit c = true := isDigit_of_mem_decimal (n := n) (by simp [hds])
    have hdash := beq_false_of_ne (ne_of_isDigit hc (q := '-') (by decide))
    have hplus := beq_false_of_ne (ne_of_isDigit hc (q := '+') (by decide))
    have hvalue := readDigits_decimal h id rfl
    rw [hds] at hvalue
    rw [heq, hds]
    dsimp only
    rw [hdash, hplus]
    exact hvalue
  · have hvalue := readDigits_decimal (n := n) (by simpa [isTooLong] using h) (fun i => -i) rfl
    rw [heq]
    exact hvalue

end LoopPainter.Yaml
