import Mathlib.Data.Nat.Find
import Mathlib.Data.Int.Notation
import Mathlib.Tactic.Common

/-!
# Bracket depth and the partner of a bracket

The depth of a text at a position is the number of `[` before it minus the number
of `]` before it.  It may become negative.  A `[` at `o` and a `]` at `c` are
*partners* if `c` is the first position behind which the depth is back at what it
was before `o`.  This is the standard matching of brackets, said without a stack:

* `Partner.close_unique`, `Partner.open_unique`: no bracket has two partners;
* `Partner.exists_inner_close`: what opens between two partners closes between them;
* `exists_partner_of_depth_le`, `exists_partner_of_le_depth`: a `[` has a partner as
  soon as the depth comes back to its level, and a `]` has one as soon as the depth
  was once no greater than behind it.

A `]` without partner lowers the depth below all that it was before
(`isStray_iff`), so the first such `]` is where the depth becomes negative for the
first time (`isStray_of_neg`).
-/

namespace LoopPainter.Brackets

variable {l : List Char} {o c k : ℕ}

/-- The brackets opened minus the brackets closed in the first `k` characters. -/
def depth (l : List Char) (k : ℕ) : ℤ :=
  (l.take k).count '[' - (l.take k).count ']'

@[simp] theorem depth_zero : depth l 0 = 0 := by
  simp [depth]

theorem depth_succ (l : List Char) (k : ℕ) :
    depth l (k + 1) = depth l k + (l[k]?.toList.count '[' - l[k]?.toList.count ']') := by
  simp only [depth, List.take_add_one, List.count_append]
  omega

theorem depth_succ_of_open (h : l[k]? = some '[') : depth l (k + 1) = depth l k + 1 := by
  rw [depth_succ, h]
  rfl

theorem depth_succ_of_close (h : l[k]? = some ']') : depth l (k + 1) = depth l k - 1 := by
  rw [depth_succ, h]
  rfl

theorem depth_succ_of_ne (hopen : l[k]? ≠ some '[') (hclose : l[k]? ≠ some ']') :
    depth l (k + 1) = depth l k := by
  rw [depth_succ]
  cases h : l[k]? with
  | none => simp
  | some x =>
      rw [h] at hopen hclose
      have hx : x ≠ '[' ∧ x ≠ ']' := ⟨fun hx => hopen (hx ▸ rfl), fun hx => hclose (hx ▸ rfl)⟩
      simp [hx.1, hx.2]

/-- The depth changes by at most one, downward only at a `]`. -/
theorem depth_succ_cases (l : List Char) (k : ℕ) :
    (l[k]? = some '[' ∧ depth l (k + 1) = depth l k + 1) ∨
      (l[k]? = some ']' ∧ depth l (k + 1) = depth l k - 1) ∨
      (l[k]? ≠ some '[' ∧ l[k]? ≠ some ']' ∧ depth l (k + 1) = depth l k) := by
  by_cases hopen : l[k]? = some '['
  · exact .inl ⟨hopen, depth_succ_of_open hopen⟩
  · by_cases hclose : l[k]? = some ']'
    · exact .inr (.inl ⟨hclose, depth_succ_of_close hclose⟩)
    · exact .inr (.inr ⟨hopen, hclose, depth_succ_of_ne hopen hclose⟩)

theorem depth_append_of_le {a b : List Char} (h : k ≤ a.length) :
    depth (a ++ b) k = depth a k := by
  rw [depth, depth, List.take_append_of_le_length h]

theorem depth_append_add (a b : List Char) (k : ℕ) :
    depth (a ++ b) (a.length + k) = depth a a.length + depth b k := by
  simp only [depth, List.take_length_add_append, List.take_length, List.count_append]
  omega

theorem depth_cons (x : Char) (l : List Char) (k : ℕ) :
    depth (x :: l) (k + 1) = depth [x] 1 + depth l k := by
  have h := depth_append_add [x] l k
  rw [List.length_singleton, Nat.add_comm 1] at h
  exact h

theorem depth_open_cons (l : List Char) (k : ℕ) : depth ('[' :: l) (k + 1) = 1 + depth l k :=
  depth_cons '[' l k

theorem depth_close_cons (l : List Char) (k : ℕ) : depth (']' :: l) (k + 1) = depth l k - 1 := by
  rw [depth_cons, Int.add_comm]
  rfl

theorem depth_plain_cons {x : Char} (hx : x ≠ '[' ∧ x ≠ ']') (l : List Char) (k : ℕ) :
    depth (x :: l) (k + 1) = depth l k := by
  have hone : depth [x] 1 = 0 := by simp [depth, hx.1, hx.2]
  rw [depth_cons, hone, Int.zero_add]

/-! ## Partners -/

/-- The `[` at `o` is closed by the `]` at `c`. -/
structure Partner (l : List Char) (o c : ℕ) : Prop where
  opening : l[o]? = some '['
  closing : l[c]? = some ']'
  lt : o < c
  above : ∀ k ≤ c, o < k → depth l o < depth l k
  level : depth l (c + 1) = depth l o

instance (l : List Char) (o c : ℕ) : Decidable (Partner l o c) :=
  decidable_of_iff (l[o]? = some '[' ∧ l[c]? = some ']' ∧ o < c ∧
      (∀ k ≤ c, o < k → depth l o < depth l k) ∧ depth l (c + 1) = depth l o)
    ⟨fun ⟨h₁, h₂, h₃, h₄, h₅⟩ => ⟨h₁, h₂, h₃, h₄, h₅⟩,
      fun ⟨h₁, h₂, h₃, h₄, h₅⟩ => ⟨h₁, h₂, h₃, h₄, h₅⟩⟩

namespace Partner

theorem close_lt_length (h : Partner l o c) : c < l.length :=
  (List.getElem?_eq_some_iff.mp h.closing).1

theorem close_unique {c' : ℕ} (h : Partner l o c) (h' : Partner l o c') : c = c' := by
  rcases lt_trichotomy c c' with hlt | heq | hgt
  · have := h'.above (c + 1) hlt (by have := h.lt; omega)
    have := h.level
    omega
  · exact heq
  · have := h.above (c' + 1) hgt (by have := h'.lt; omega)
    have := h'.level
    omega

theorem open_unique {o' : ℕ} (h : Partner l o c) (h' : Partner l o' c) : o = o' := by
  have hlevel : depth l o = depth l o' := h.level.symm.trans h'.level
  rcases lt_trichotomy o o' with hlt | heq | hgt
  · have := h.above o' (Nat.le_of_lt h'.lt) hlt
    omega
  · exact heq
  · have := h'.above o (Nat.le_of_lt h.lt) hgt
    omega

end Partner

/-- A `[` has its partner before any later position where the depth is back at its level. -/
theorem exists_partner_of_depth_le (hopen : l[o]? = some '[') (hlt : o < k)
    (hle : depth l k ≤ depth l o) : ∃ c < k, Partner l o c := by
  classical
  have hex : ∃ j, o < j ∧ depth l j ≤ depth l o := ⟨k, hlt, hle⟩
  -- the first return to the level of `o` lies just behind the partner
  obtain ⟨hfirst, hreturn⟩ := Nat.find_spec hex
  have hmin : ∀ j, o < j → j < Nat.find hex → depth l o < depth l j := by
    intro j hj hjlt
    by_contra hjle
    exact Nat.find_min hex hjlt ⟨hj, by omega⟩
  have hfind : Nat.find hex ≤ k := Nat.find_min' hex ⟨hlt, hle⟩
  generalize Nat.find hex = r at hfirst hreturn hmin hfind
  obtain ⟨c, rfl⟩ : ∃ c, r = c + 1 := ⟨r - 1, by omega⟩
  have hup := depth_succ_of_open hopen
  have hoc : o < c := by
    rcases Nat.lt_or_ge o c with h | h
    · exact h
    · obtain rfl : c = o := by omega
      omega
  have habove := hmin c hoc c.lt_succ_self
  refine ⟨c, by omega, hopen, ?_, hoc, fun j hj hoj => hmin j hoj (by omega), ?_⟩
  · rcases depth_succ_cases l c with ⟨-, h⟩ | ⟨hc, -⟩ | ⟨-, -, h⟩
    · omega
    · exact hc
    · omega
  · rcases depth_succ_cases l c with ⟨-, h⟩ | ⟨-, h⟩ | ⟨-, -, h⟩ <;> omega

/-- A `]` has its partner behind any earlier position where the depth was no greater than it is
behind the `]`. -/
theorem exists_partner_of_le_depth (hclose : l[c]? = some ']') (hle : k ≤ c)
    (hdepth : depth l k ≤ depth l (c + 1)) : ∃ o, k ≤ o ∧ Partner l o c := by
  have hdown := depth_succ_of_close hclose
  -- the last position no later than the `]` that is not above its level is the partner
  induction hn : c - k using Nat.strong_induction_on generalizing k with
  | _ n ih =>
      by_cases hlater : ∃ j, k < j ∧ j ≤ c ∧ depth l j ≤ depth l (c + 1)
      · obtain ⟨j, hkj, hjc, hj⟩ := hlater
        obtain ⟨o, hjo, ho⟩ := ih (c - j) (by omega) hjc hj rfl
        exact ⟨o, by omega, ho⟩
      · have habove : ∀ j, k < j → j ≤ c → depth l (c + 1) < depth l j := by
          intro j hkj hjc
          by_contra hj
          exact hlater ⟨j, hkj, hjc, by omega⟩
        have hkc : k < c := by
          rcases Nat.lt_or_ge k c with h | h
          · exact h
          · obtain rfl : k = c := by omega
            omega
        have hnext := habove (k + 1) k.lt_succ_self hkc
        rcases depth_succ_cases l k with ⟨hopen, h⟩ | ⟨-, h⟩ | ⟨-, -, h⟩
        · refine ⟨k, le_rfl, hopen, hclose, hkc, ?_, by omega⟩
          intro j hjc hkj
          have := habove j hkj hjc
          omega
        -- any other character keeps the depth at the level, where it is not to be again
        · omega
        · omega

namespace Partner

/-- What opens between two partners closes between them. -/
theorem exists_inner_close {o' : ℕ} (h : Partner l o c) (hopen : l[o']? = some '[')
    (hlt : o < o') (hlt' : o' < c) : ∃ c' < c, Partner l o' c' := by
  have habove := h.above o' (Nat.le_of_lt hlt') hlt
  have hlevel := h.level
  obtain ⟨c', hc', hpartner⟩ := exists_partner_of_depth_le (k := c + 1) hopen (by omega) (by omega)
  refine ⟨c', ?_, hpartner⟩
  rcases Nat.lt_or_ge c' c with hlt | hge
  · exact hlt
  · obtain rfl : c' = c := by omega
    have := h.open_unique hpartner
    omega

/-- Inside a pair of partners the depth never comes down to the level of the `[`, also not right
in front of the `]`. -/
theorem depth_close (h : Partner l o c) : depth l c = depth l (o + 1) := by
  have := depth_succ_of_open h.opening
  have := depth_succ_of_close h.closing
  have := h.level
  omega

end Partner

/-! ## Brackets without partner -/

/-- A `]` that closes nothing. -/
def IsStray (l : List Char) (u : ℕ) : Prop :=
  l[u]? = some ']' ∧ ∀ o < u, ¬ Partner l o u

instance (l : List Char) (u : ℕ) : Decidable (IsStray l u) :=
  inferInstanceAs (Decidable (_ ∧ _))

/-- A `[` that is never closed. -/
def IsUnclosed (l : List Char) (o : ℕ) : Prop :=
  l[o]? = some '[' ∧ ∀ c < l.length, ¬ Partner l o c

instance (l : List Char) (o : ℕ) : Decidable (IsUnclosed l o) :=
  inferInstanceAs (Decidable (_ ∧ _))

/-- The first `]` without partner, or the length of the text if every `]` has one. -/
def cutoff (l : List Char) : ℕ :=
  ((List.range l.length).find? fun u => decide (IsStray l u)).getD l.length

theorem cutoff_le_length (l : List Char) : cutoff l ≤ l.length := by
  unfold cutoff
  cases hfind : (List.range l.length).find? fun u => decide (IsStray l u) with
  | none => exact le_rfl
  | some u => exact Nat.le_of_lt (List.mem_range.mp (List.mem_of_find?_eq_some hfind))

/-- A `]` without partner lowers the depth below all that it was before. -/
theorem isStray_iff {u : ℕ} :
    IsStray l u ↔ l[u]? = some ']' ∧ ∀ k ≤ u, depth l (u + 1) < depth l k := by
  refine and_congr_right fun hclose => ⟨?_, ?_⟩
  · intro h k hk
    by_contra hle
    obtain ⟨o, -, ho⟩ := exists_partner_of_le_depth hclose hk (by omega)
    exact h o ho.lt ho
  · intro h o ho hpartner
    have := h o (Nat.le_of_lt ho)
    have := hpartner.level
    omega

theorem IsStray.depth_neg {u : ℕ} (h : IsStray l u) : depth l (u + 1) < 0 := by
  have := (isStray_iff.mp h).2 0 (Nat.zero_le u)
  rwa [depth_zero] at this

/-- Where the depth becomes negative for the first time, the text has a `]` without partner, and
none before. -/
theorem isStray_of_neg {u : ℕ} (hneg : depth l (u + 1) < 0) (hbefore : ∀ k ≤ u, 0 ≤ depth l k) :
    IsStray l u ∧ ∀ v < u, ¬ IsStray l v := by
  constructor
  · have hu := hbefore u le_rfl
    rcases depth_succ_cases l u with ⟨-, h⟩ | ⟨hclose, h⟩ | ⟨-, -, h⟩
    · omega
    · refine isStray_iff.mpr ⟨hclose, ?_⟩
      intro k hk
      have := hbefore k hk
      omega
    · omega
  · intro v hv hstray
    have := hstray.depth_neg
    have := hbefore (v + 1) hv
    omega

theorem IsStray.lt_length {u : ℕ} (h : IsStray l u) : u < l.length :=
  (List.getElem?_eq_some_iff.mp h.1).1

theorem cutoff_eq_of_isStray {u : ℕ} (h : IsStray l u) (hfirst : ∀ v < u, ¬ IsStray l v) :
    cutoff l = u := by
  have hfind : (List.range l.length).find? (fun u => decide (IsStray l u)) = some u := by
    simp only [List.find?_range_eq_some, decide_eq_true_eq, List.mem_range]
    exact ⟨h, h.lt_length, fun v hv => by simpa using hfirst v hv⟩
  rw [cutoff, hfind, Option.getD_some]

/-- If the depth never becomes negative, every `]` has a partner. -/
theorem cutoff_eq_length (h : ∀ k ≤ l.length, 0 ≤ depth l k) : cutoff l = l.length := by
  have hfind : (List.range l.length).find? (fun u => decide (IsStray l u)) = none := by
    simp only [List.find?_eq_none, decide_eq_true_eq, List.mem_range]
    intro u hu hstray
    have := hstray.depth_neg
    have := h (u + 1) hu
    omega
  rw [cutoff, hfind, Option.getD_none]

end LoopPainter.Brackets
