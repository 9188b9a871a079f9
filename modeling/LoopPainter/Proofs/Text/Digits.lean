import LoopPainter.Text.Digits
import Mathlib.Algebra.Group.Nat.Defs
import Mathlib.Data.Int.Notation
import Mathlib.Tactic.Common

/-!
# Written numbers

The digits of a number are digits of its base, no more than it needs and none of them a zero in
front; filled with zeros they stand for the same number (`ofDigits_padded`).  A decimal number that
is not too long to be written is read back (`readInteger?_decimal`).
-/

namespace LoopPainter.Text

variable {base fuel width n k : ℕ} {rest : List Char}

/-! ## Digits of a number -/

theorem length_digitsOnto_le (hk : 0 < k) (hn : n < base ^ k) :
    (digitsOnto base fuel n rest).length ≤ k + rest.length := by
  induction fuel generalizing n k rest with
  | zero => exact Nat.le_add_left _ _
  | succ fuel ih =>
      unfold digitsOnto
      dsimp only
      split
      · rw [List.length_cons]
        omega
      · next hmore =>
          obtain ⟨k, rfl⟩ : ∃ j, k = j + 1 := ⟨k - 1, by omega⟩
          have hn' : n / base < base ^ k := by
            rw [Nat.pow_succ, Nat.mul_comm] at hn
            exact Nat.div_lt_of_lt_mul hn
          have hk' : 0 < k := by
            rcases Nat.eq_zero_or_pos k with rfl | hpos
            · rw [Nat.pow_zero, Nat.lt_one_iff] at hn'
              exact absurd hn' hmore
            · exact hpos
          have hlength : (digitsOnto base fuel (n / base) (digitChar (n % base) :: rest)).length ≤
              k + (rest.length + 1) := ih hk' hn'
          omega

theorem length_natDigits_le (hk : 0 < k) (hn : n < base ^ k) : (natDigits base n).length ≤ k :=
  length_digitsOnto_le hk hn

theorem isTooLong_eq_false_iff {i : ℤ} : isTooLong i = false ↔ i.natAbs < 10 ^ maxDigits := by
  rw [isTooLong, decide_eq_false_iff_not, Nat.not_le, Nat.pow_eq]

theorem isTooLong_eq_false_of_lt {i : ℤ} (hn : n ≤ maxDigits) (h : i.natAbs < 10 ^ n) :
    isTooLong i = false :=
  isTooLong_eq_false_iff.mpr (Nat.lt_of_lt_of_le h (Nat.pow_le_pow_right (by decide) hn))

theorem mem_digitsOnto (hbase : 0 < base) {c : Char} (h : c ∈ digitsOnto base fuel n rest) :
    c ∈ rest ∨ ∃ d < base, c = digitChar d := by
  induction fuel generalizing n rest with
  | zero => exact .inl h
  | succ fuel ih =>
      unfold digitsOnto at h
      dsimp only at h
      have hdigit (h : c ∈ digitChar (n % base) :: rest) :
          c ∈ rest ∨ ∃ d < base, c = digitChar d := by
        rcases List.mem_cons.mp h with rfl | hmem
        · exact .inr ⟨n % base, Nat.mod_lt n hbase, rfl⟩
        · exact .inl hmem
      split at h
      · exact hdigit h
      · rcases ih h with hmem | hd
        · exact hdigit hmem
        · exact .inr hd

theorem exists_digit_of_mem (hbase : 0 < base) {c : Char} (h : c ∈ natDigits base n) :
    ∃ d < base, c = digitChar d :=
  (mem_digitsOnto hbase h).resolve_left nofun

/-- The first digit of a number other than zero is no zero. -/
theorem exists_cons_digitsOnto (hbase : 2 ≤ base) (hpos : 0 < n) (hfuel : n < base ^ fuel) :
    ∃ d ds, 0 < d ∧ d < base ∧ digitsOnto base fuel n rest = digitChar d :: ds := by
  induction fuel generalizing n rest with
  | zero => simp at hfuel; omega
  | succ fuel ih =>
      unfold digitsOnto
      dsimp only
      split
      · next hlast =>
          have hlt : n < base := by
            rcases Nat.div_eq_zero_iff.mp hlast with hzero | hlt
            · omega
            · exact hlt
          exact ⟨n % base, rest, by rwa [Nat.mod_eq_of_lt hlt], Nat.mod_lt n (by omega), rfl⟩
      · next hmore =>
          refine ih (Nat.pos_of_ne_zero hmore) ?_
          rw [Nat.pow_succ, Nat.mul_comm] at hfuel
          exact Nat.div_lt_of_lt_mul hfuel

theorem exists_cons_natDigits (hbase : 2 ≤ base) (hpos : 0 < n) :
    ∃ d ds, 0 < d ∧ d < base ∧ natDigits base n = digitChar d :: ds :=
  exists_cons_digitsOnto hbase hpos
    (Nat.lt_of_lt_of_le Nat.lt_log2_self (Nat.pow_le_pow_left hbase _))

/-! ## Numbers of a fixed width -/

theorem mem_padded (hbase : 0 < base) {c : Char} (h : c ∈ padded base width n) :
    ∃ d < base, c = digitChar d := by
  rcases List.mem_append.mp h with hzero | hdigit
  · exact ⟨0, hbase, List.eq_of_mem_replicate hzero⟩
  · exact exists_digit_of_mem hbase hdigit

theorem length_padded (hwidth : 0 < width) (hn : n < base ^ width) :
    (padded base width n).length = width := by
  have hlength : (natDigits base n).length ≤ width := length_natDigits_le hwidth hn
  simp only [padded, List.length_append, List.length_replicate]
  omega

theorem ofDigits_padded (hlow : 2 ≤ base) (hhigh : base ≤ 16) :
    ofDigits base (padded base width n) = n := by
  have hzeros (k : ℕ) :
      (List.replicate k '0').foldl (fun n c => n * base + hexValue c) 0 = 0 := by
    induction k with
    | zero => rfl
    | succ k ih =>
        rw [List.replicate_succ, List.foldl_cons, Nat.zero_mul]
        exact ih
  rw [ofDigits, padded, List.foldl_append, hzeros]
  exact ofDigits_natDigits hlow hhigh n

/-! ## Decimal numbers -/

theorem isDigit_digitChar : ∀ d < 10, isDigit (digitChar d) = true := by
  decide

theorem ne_of_isDigit {c q : Char} (h : isDigit c = true) (hq : isDigit q = false) : c ≠ q := by
  rintro rfl
  rw [h] at hq
  cases hq

theorem isDigit_of_mem_decimal {c : Char} (h : c ∈ decimal n) : isDigit c = true := by
  obtain ⟨d, hd, rfl⟩ := exists_digit_of_mem (by decide) h
  exact isDigit_digitChar d hd

theorem decimal_ne_nil (n : ℕ) : decimal n ≠ [] := by
  rcases Nat.eq_zero_or_pos n with rfl | hpos
  · decide
  · obtain ⟨d, ds, -, -, h⟩ := exists_cons_natDigits (show 2 ≤ 10 by decide) hpos
    rw [decimal, h]
    nofun

theorem digitValue?_of_isDigit {c : Char} (h : isDigit c = true) :
    digitValue? c = some (hexValue c) := by
  rw [digitValue?, hexValue, if_pos h]
  exact if_pos h

/-- A run of digits is read digit by digit. -/
theorem groupedDigits?_of_isDigit {ds : List Char} (hne : ds ≠ [])
    (hds : ∀ c ∈ ds, isDigit c = true) :
    groupedDigits? digitValue? ds = some (ds.map hexValue) := by
  induction ds with
  | nil => exact absurd rfl hne
  | cons c ds ih =>
      rw [List.forall_mem_cons] at hds
      have hc := digitValue?_of_isDigit hds.1
      cases ds with
      | nil => simp [groupedDigits?, hc]
      | cons d ds =>
          have hd : d ≠ '_' := by
            rintro rfl
            exact absurd (hds.2 '_' (by simp)) (by decide)
          rw [groupedDigits?]
          · rw [hc, ih nofun hds.2]
            rfl
          · nofun
          · rintro _ ⟨⟩
            exact hd rfl

theorem isSpace_of_isDigit {c : Char} (h : isDigit c = true) : isSpace c = false := by
  simp only [isDigit, Bool.and_eq_true, decide_eq_true_eq, Char.le_def, UInt32.le_iff_toNat_le] at h
  have hlow : 48 ≤ c.toNat := h.1
  have hhigh : c.toNat ≤ 57 := h.2
  simp only [isSpace, Bool.or_eq_false_iff, Bool.and_eq_false_iff, beq_eq_false_iff_ne,
    decide_eq_false_iff_not]
  omega

/-- Nothing is trimmed from a text whose ends are kept. -/
theorem trimBy_eq_self {p : Char → Bool} {s : List Char} (hhead : ∀ c ∈ s.head?, p c = false)
    (hlast : ∀ c ∈ s.getLast?, p c = false) : trimBy p s = s := by
  have hkeep (l : List Char) (h : ∀ c ∈ l.head?, p c = false) : l.dropWhile p = l := by
    cases l with
    | nil => rfl
    | cons c l => simp [h c rfl]
  rw [trimBy, hkeep s hhead, hkeep, List.reverse_reverse]
  intro c hc
  exact hlast c (by rwa [List.head?_reverse] at hc)

theorem splitSign_of_isDigit {c : Char} {ds : List Char} (h : isDigit c = true) :
    splitSign (c :: ds) = (false, c :: ds) := by
  unfold splitSign
  split
  · next heq => cases heq; exact absurd h (by decide)
  · next heq => cases heq; exact absurd h (by decide)
  · rfl

theorem ofDigitValues_map_hexValue (ds : List Char) :
    ofDigitValues (ds.map hexValue) = ofDigits 10 ds := by
  rw [ofDigitValues, ofDigits, List.foldl_map]

/-- A decimal number that can be written is read back. -/
theorem readInteger?_decimal (hn : isTooLong (n : ℤ) = false) :
    readInteger? (decimal n) = some (n : ℤ) := by
  have hds : ∀ c ∈ decimal n, isDigit c = true := fun c => isDigit_of_mem_decimal
  have htrim : trimBy isSpace (decimal n) = decimal n :=
    trimBy_eq_self (fun c hc => isSpace_of_isDigit (hds c (List.mem_of_mem_head? hc)))
      fun c hc => isSpace_of_isDigit (hds c (List.mem_of_mem_getLast? hc))
  have hlength : (decimal n).length ≤ maxDigits :=
    length_natDigits_le (by decide) (by simpa using isTooLong_eq_false_iff.mp hn)
  have hsign : splitSign (decimal n) = (false, decimal n) := by
    cases h : decimal n with
    | nil => exact absurd h (decimal_ne_nil n)
    | cons c ds => exact splitSign_of_isDigit (hds c (by simp [h]))
  have hgroups := groupedDigits?_of_isDigit (decimal_ne_nil n) hds
  have hvalue : ofDigits 10 (decimal n) = n := ofDigits_natDigits (by decide) (by decide) n
  simp [readInteger?, htrim, hsign, hgroups, hlength, ofDigitValues_map_hexValue, hvalue, signed]

end LoopPainter.Text
