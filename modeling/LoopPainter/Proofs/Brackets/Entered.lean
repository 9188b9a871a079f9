import LoopPainter.Proofs.Brackets.Depth
import Mathlib.Data.Set.Basic

/-!
# The loops entered at a position

`entered l i` are the `[` before position `i` that are not closed before it: those
whose partner is at `i` or later, and those that have none.  A cursor at `i` stands
in exactly these loops.

Moving on by one adds a `[` and takes away the partner of a `]`
(`mem_entered_succ_iff`).  Jumping back from a `]` to the place behind its own `[`
changes nothing (`entered_open_succ`): what was opened since then was closed again.
-/

namespace LoopPainter.Brackets

variable {l : List Char} {i o c q : ℕ}

/-- The `[` before position `i` that are not closed before it. -/
def entered (l : List Char) (i : ℕ) : Set ℕ :=
  {o | o < i ∧ l[o]? = some '[' ∧ ∀ c, Partner l o c → i ≤ c}

/-- The `[` that are never closed, in ascending order. -/
def unclosed (l : List Char) : List ℕ :=
  (List.range l.length).filter fun o => decide (IsUnclosed l o)

@[simp] theorem not_mem_entered_zero : o ∉ entered l 0 :=
  fun h => Nat.not_lt_zero o h.1

theorem Partner.mem_entered (h : Partner l o c) : o ∈ entered l c :=
  ⟨h.lt, h.opening, fun _ h' => (h.close_unique h').le⟩

/-- No entered loop but the one that is closed at `i` opens behind its `[`. -/
theorem Partner.le_of_mem_entered (h : Partner l o i) (hq : q ∈ entered l i) : q ≤ o := by
  by_contra hlt
  obtain ⟨c, hc, hpartner⟩ := h.exists_inner_close hq.2.1 (by omega) hq.1
  have := hq.2.2 c hpartner
  omega

theorem mem_entered_succ_iff :
    o ∈ entered l (i + 1) ↔
      (o ∈ entered l i ∨ (o = i ∧ l[i]? = some '[')) ∧ ¬ Partner l o i := by
  constructor
  · rintro ⟨hlt, hopen, hclose⟩
    refine ⟨?_, fun h => by have := hclose i h; omega⟩
    rcases Nat.lt_or_eq_of_le (Nat.lt_succ_iff.mp hlt) with h | rfl
    · exact .inl ⟨h, hopen, fun c hc => by have := hclose c hc; omega⟩
    · exact .inr ⟨rfl, hopen⟩
  · rintro ⟨⟨hlt, hopen, hclose⟩ | ⟨rfl, hopen⟩, hne⟩
    · refine ⟨by omega, hopen, ?_⟩
      intro c hc
      have hci : c ≠ i := fun h => hne (h ▸ hc)
      have := hclose c hc
      omega
    · exact ⟨o.lt_succ_self, hopen, fun c hc => hc.lt⟩

theorem entered_succ_of_ne (hopen : l[i]? ≠ some '[') (hclose : l[i]? ≠ some ']') :
    entered l (i + 1) = entered l i := by
  ext o
  rw [mem_entered_succ_iff]
  constructor
  · rintro ⟨ho | ⟨-, ho⟩, -⟩
    · exact ho
    · exact absurd ho hopen
  · exact fun ho => ⟨.inl ho, fun hpartner => hclose hpartner.closing⟩

theorem mem_entered_succ_of_open (hopen : l[i]? = some '[') :
    o ∈ entered l (i + 1) ↔ o ∈ entered l i ∨ o = i := by
  have hnot : ¬ Partner l o i := by
    intro hpartner
    have hclose := hpartner.closing
    rw [hopen] at hclose
    exact absurd hclose (by decide)
  rw [mem_entered_succ_iff]
  simp [hopen, hnot]

theorem Partner.mem_entered_succ_iff (h : Partner l o i) :
    q ∈ entered l (i + 1) ↔ q ∈ entered l i ∧ q ≠ o := by
  rw [Brackets.mem_entered_succ_iff, h.closing]
  constructor
  · rintro ⟨hq | ⟨-, hq⟩, hne⟩
    · exact ⟨hq, fun heq => hne (heq ▸ h)⟩
    · exact absurd hq (by decide)
  · exact fun ⟨hq, hne⟩ => ⟨.inl hq, fun hpartner => hne (hpartner.open_unique h)⟩

/-- Behind the `[` of a pair the same loops are entered as in front of its `]`. -/
theorem entered_open_succ (h : Partner l o i) : entered l (o + 1) = entered l i := by
  ext q
  constructor
  · rintro ⟨hlt, hopen, hclose⟩
    have hoi := h.lt
    refine ⟨by omega, hopen, ?_⟩
    intro c hc
    by_contra hci
    rcases Nat.lt_or_eq_of_le (Nat.lt_succ_iff.mp hlt) with hqo | rfl
    · have := hclose c hc
      have hne : c ≠ o := by
        intro heq
        have hopen' := h.opening
        rw [← heq, hc.closing] at hopen'
        exact absurd hopen' (by decide)
      -- a pair that opens in front of `o` and closes behind it closes behind `i` as well
      obtain ⟨c', hc', hpartner⟩ := hc.exists_inner_close h.opening hqo (by omega)
      have := h.close_unique hpartner
      omega
    · have := h.close_unique hc
      omega
  · intro hq
    have hqo := h.le_of_mem_entered hq
    refine ⟨by omega, hq.2.1, ?_⟩
    intro c hc
    have := hq.2.2 c hc
    have := h.lt
    omega

/-- In front of a `]` without partner no loop is entered. -/
theorem IsStray.entered_eq_empty (h : IsStray l i) : entered l i = ∅ := by
  refine Set.eq_empty_of_forall_notMem ?_
  rintro o ⟨hlt, hopen, hclose⟩
  have hdepth := (isStray_iff.mp h).2 o (Nat.le_of_lt hlt)
  obtain ⟨c, hc, hpartner⟩ := exists_partner_of_depth_le (k := i + 1) hopen (by omega) (by omega)
  have := hclose c hpartner
  obtain rfl : c = i := by omega
  exact h.2 o hlt hpartner

/-- At the end the entered loops are those that are never closed. -/
theorem mem_entered_length : o ∈ entered l l.length ↔ IsUnclosed l o := by
  constructor
  · rintro ⟨-, hopen, hclose⟩
    refine ⟨hopen, ?_⟩
    intro c hc hpartner
    have := hclose c hpartner
    omega
  · rintro ⟨hopen, hnone⟩
    refine ⟨(List.getElem?_eq_some_iff.mp hopen).1, hopen, ?_⟩
    intro c hpartner
    exact absurd hpartner (hnone c hpartner.close_lt_length)

theorem mem_unclosed : o ∈ unclosed l ↔ o ∈ entered l l.length := by
  rw [mem_entered_length, unclosed, List.mem_filter, List.mem_range, decide_eq_true_eq]
  exact ⟨fun h => h.2, fun h => ⟨(List.getElem?_eq_some_iff.mp h.1).1, h⟩⟩

theorem pairwise_unclosed (l : List Char) : (unclosed l).Pairwise (· < ·) :=
  List.pairwise_lt_range.filter _

end LoopPainter.Brackets
