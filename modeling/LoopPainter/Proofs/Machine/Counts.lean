import LoopPainter.Proofs.Brackets.Pairs
import LoopPainter.Proofs.Machine.Passage
import Mathlib.Algebra.BigOperators.Group.Finset.Basic

/-!
# How often each position is executed

Every loop runs its body and its `]` twice, so a position inside `e` loops is
executed `2 ^ e` times, where a `]` is inside its own loop and a `[` is not.  This
is first counted in the list of positions that the passage through a tree executes
(`Block.count_visits`); `enclosing_eq` turns the loops of the tree into pairs of
partners.

The number of steps, the number of pauses and the last ink and heading are sums of
these powers: over all positions before the cut, over those of an `S`, of a `C` and
of an `R`.
-/

namespace LoopPainter

namespace Brackets

variable {i x : ℕ}

/-! ## Counting in the tree -/

/-- The number of loops of a block at position `i` around the position `x`. -/
def Block.around (b : Block) (i x : ℕ) : ℕ :=
  (b.pairs i).countP fun oc => decide (Around x oc)

theorem Block.around_eq_zero (b : Block) (h : x ≤ i ∨ i + b.length ≤ x) : b.around i x = 0 := by
  refine List.countP_eq_zero.mpr ?_
  rintro ⟨o, c⟩ hmem haround
  have hbounds := b.bounds_of_mem_pairs hmem
  have hin : o < x ∧ x ≤ c := of_decide_eq_true haround
  omega

theorem Block.around_loop (body rest : Block) (i x : ℕ) :
    (loop body rest).around i x =
      (if i < x ∧ x ≤ i + 1 + body.length then 1 else 0) + body.around (i + 1) x +
        rest.around (i + 1 + body.length + 1) x := by
  simp only [around, pairs, List.countP_cons, List.countP_append, decide_eq_true_eq]
  change _ + (if i < x ∧ x ≤ i + 1 + body.length then 1 else 0) = _
  omega

theorem Block.bounds_of_mem_visits (b : Block) (h : x ∈ b.visits i) :
    i ≤ x ∧ x < i + b.length := by
  induction b generalizing i with
  | done => simp [visits] at h
  | plain c hc rest ih =>
      rw [length_plain]
      rcases List.mem_cons.mp h with rfl | hrest
      · omega
      · have := ih hrest
        omega
  | loop body rest ihbody ihrest =>
      simp only [visits, List.mem_cons, List.mem_append] at h
      rw [length_loop]
      rcases h with rfl | hbody | rfl | hbody | rfl | hrest
      · omega
      · have := ihbody hbody
        omega
      · omega
      · have := ihbody hbody
        omega
      · omega
      · have := ihrest hrest
        omega

theorem Block.count_visits_eq_zero (b : Block) (h : x < i ∨ i + b.length ≤ x) :
    (b.visits i).count x = 0 := by
  refine List.count_eq_zero.mpr ?_
  intro hmem
  have := b.bounds_of_mem_visits hmem
  omega

/-- A position of a block is executed twice as often for every loop around it. -/
theorem Block.count_visits (b : Block) (hle : i ≤ x) (hlt : x < i + b.length) :
    (b.visits i).count x = 2 ^ b.around i x := by
  induction b generalizing i with
  | done => simp only [length_done] at hlt; omega
  | plain c hc rest ih =>
      rw [length_plain] at hlt
      change (i :: rest.visits (i + 1)).count x = 2 ^ rest.around (i + 1) x
      rcases Nat.eq_or_lt_of_le hle with rfl | hix
      · rw [List.count_cons_self, rest.count_visits_eq_zero (.inl (Nat.lt_succ_self i)),
          rest.around_eq_zero (.inl (Nat.le_succ i))]
        rfl
      · rw [List.count_cons_of_ne (by omega), ih hix (by omega)]
  | loop body rest ihbody ihrest =>
      -- the body is visited twice, and every position in it has one loop more around it
      rw [length_loop] at hlt
      rw [around_loop]
      simp only [visits, List.count_cons, List.count_append, beq_iff_eq]
      rcases Nat.eq_or_lt_of_le hle with rfl | hix
      · -- the `[` itself
        rw [body.count_visits_eq_zero (.inl (Nat.lt_succ_self i)),
          body.around_eq_zero (.inl (Nat.le_succ i)), rest.count_visits_eq_zero (.inl (by omega)),
          rest.around_eq_zero (.inl (by omega)), if_pos rfl,
          if_neg (show i + 1 + body.length ≠ i by omega), if_neg (fun h => Nat.lt_irrefl i h.1)]
        rfl
      rcases Nat.lt_trichotomy x (i + 1 + body.length) with hbody | rfl | hrest
      · -- inside the body
        rw [ihbody (i := i + 1) hix hbody, rest.count_visits_eq_zero (.inl (by omega)),
          rest.around_eq_zero (.inl (by omega)), if_neg (by omega), if_neg (by omega),
          if_pos (by omega), Nat.add_comm 1, Nat.add_zero, Nat.pow_succ]
        omega
      · -- the `]` itself
        rw [body.count_visits_eq_zero (.inr le_rfl), body.around_eq_zero (.inr le_rfl),
          rest.count_visits_eq_zero (.inl (by omega)), rest.around_eq_zero (.inl (by omega)),
          if_pos rfl, if_neg (show i ≠ i + 1 + body.length by omega), if_pos ⟨hix, le_rfl⟩]
        rfl
      · -- behind the loop
        rw [body.count_visits_eq_zero (.inr (by omega)), body.around_eq_zero (.inr (by omega)),
          ihrest hrest (by omega), if_neg (by omega), if_neg (by omega), if_neg (by omega)]
        simp

theorem Outline.around_eq_zero (r : Outline) (h : x ≤ i) :
    ((r.pairs i).countP fun oc => decide (Around x oc)) = 0 := by
  refine List.countP_eq_zero.mpr ?_
  rintro ⟨o, c⟩ hmem haround
  have hle := r.le_of_mem_pairs hmem
  have hin : o < x ∧ x ≤ c := of_decide_eq_true haround
  omega

theorem Outline.bounds_of_mem_visits (r : Outline) (h : x ∈ r.visits i) :
    i ≤ x ∧ x < i + r.text.length := by
  induction r generalizing i with
  | last b => exact b.bounds_of_mem_visits h
  | opened b rest ih =>
      rw [visits, List.mem_append, List.mem_cons] at h
      rw [text, List.length_append, List.length_cons, b.length_text]
      rcases h with hb | rfl | hrest
      · have := b.bounds_of_mem_visits hb
        omega
      · omega
      · have := ih hrest
        omega

theorem Outline.count_visits_eq_zero (r : Outline) (h : x < i ∨ i + r.text.length ≤ x) :
    (r.visits i).count x = 0 := by
  refine List.count_eq_zero.mpr ?_
  intro hmem
  have := r.bounds_of_mem_visits hmem
  omega

/-- A `[` between two blocks encloses nothing. -/
theorem Outline.count_visits (r : Outline) (hle : i ≤ x) (hlt : x < i + r.text.length) :
    (r.visits i).count x = 2 ^ (r.pairs i).countP fun oc => decide (Around x oc) := by
  induction r generalizing i with
  | last b => exact b.count_visits hle hlt
  | opened b rest ih =>
      have hblock : ((b.pairs i).countP fun oc => decide (Around x oc)) = b.around i x := rfl
      rw [text, List.length_append, List.length_cons, b.length_text] at hlt
      rw [visits, pairs, List.count_append, List.countP_append, hblock]
      rcases Nat.lt_trichotomy x (i + b.length) with hb | rfl | hrest
      · rw [b.count_visits hle hb, List.count_cons_of_ne (by omega),
          rest.count_visits_eq_zero (.inl (by omega)), rest.around_eq_zero (by omega)]
        simp
      · rw [b.count_visits_eq_zero (.inr le_rfl), b.around_eq_zero (.inr le_rfl),
          List.count_cons_self, rest.count_visits_eq_zero (.inl (by omega)),
          rest.around_eq_zero (by omega)]
        rfl
      · rw [b.count_visits_eq_zero (.inr (by omega)), b.around_eq_zero (.inr (by omega)),
          List.count_cons_of_ne (by omega), ih hrest (by omega)]
        simp

/-- No position from the cut on is executed. -/
theorem lt_cutoff_of_mem_visits {l : List Char} (h : x ∈ (Reading.ofText l).visits) :
    x < cutoff l := by
  cases hread : Reading.ofText l with
  | whole r =>
      rw [hread] at h
      have := r.bounds_of_mem_visits h
      rw [cutoff_of_whole hread, ← Reading.text_of_whole hread]
      omega
  | cut b after =>
      rw [hread] at h
      have := b.bounds_of_mem_visits h
      rw [cutoff_of_cut hread]
      omega

/-- A position before the cut is executed twice as often for every pair of partners around it. -/
theorem count_visits_ofText {l : List Char} (hlt : x < cutoff l) :
    (Reading.ofText l).visits.count x = 2 ^ enclosing l x := by
  rw [enclosing_eq (Nat.le_of_lt hlt)]
  cases hread : Reading.ofText l with
  | whole r =>
      rw [cutoff_of_whole hread, ← Reading.text_of_whole hread] at hlt
      exact r.count_visits (Nat.zero_le x) (by omega)
  | cut b after =>
      rw [cutoff_of_cut hread] at hlt
      exact b.count_visits (Nat.zero_le x) (by omega)

/-- Every position before the cut is executed. -/
theorem toFinset_visits_ofText (l : List Char) :
    (Reading.ofText l).visits.toFinset = Finset.range (cutoff l) := by
  ext x
  rw [List.mem_toFinset, Finset.mem_range]
  refine ⟨lt_cutoff_of_mem_visits, fun hlt => List.count_pos_iff.mp ?_⟩
  rw [count_visits_ofText hlt]
  exact Nat.two_pow_pos _

/-- How often the positions with a property are executed is a sum over these positions. -/
theorem countP_visits_ofText (l : List Char) (P : ℕ → Prop) [DecidablePred P] :
    ((Reading.ofText l).visits.countP fun x => decide (P x)) =
      ∑ x ∈ Finset.range (cutoff l) with P x, 2 ^ enclosing l x := by
  rw [← Finset.sum_filter_count_eq_countP, toFinset_visits_ofText]
  refine Finset.sum_congr rfl ?_
  intro x hx
  exact count_visits_ofText (Finset.mem_range.mp (Finset.mem_filter.mp hx).1)

theorem length_visits_ofText (l : List Char) :
    (Reading.ofText l).visits.length = ∑ x ∈ Finset.range (cutoff l), 2 ^ enclosing l x := by
  have h := countP_visits_ofText l fun _ => True
  simpa using h

/-! ## Counting in the unrolled text -/

variable {p : Array Char} {k : Char}

open Machine (At)

private theorem ne_bracket_of_mem_strokes (hk : k ∈ strokes) : '[' ≠ k ∧ ']' ≠ k := by
  constructor <;> (rintro rfl; exact absurd hk (by decide))

/-- A character is written in the unrolled block as often as it is executed. -/
theorem Block.count_unroll (b : Block) (hk : k ∈ strokes) (hat : At p i b.text) :
    b.unroll.count k = (b.visits i).countP fun x => decide (p[x]? = some k) := by
  induction b generalizing i with
  | done => rfl
  | plain c hc rest ih =>
      rw [visits, List.countP_cons, hat.head, ← ih hat.tail, unroll]
      by_cases hstroke : c ∈ strokes
      · rw [if_pos hstroke, List.count_cons]
        simp
      · have hck : c ≠ k := fun h => hstroke (h ▸ hk)
        rw [if_neg hstroke]
        simp [hck]
  | loop body rest ihbody ihrest =>
      obtain ⟨hopen, hclose⟩ := ne_bracket_of_mem_strokes hk
      have hat' : At p (i + 1 + body.length) (']' :: rest.text) := hat.tail.right
      have hbody := ihbody hat.tail.left
      have hrest := ihrest hat'.tail
      simp only [unroll, visits, List.count_append, List.countP_append, List.countP_cons, hbody,
        hrest, hat.head, hat'.head, Option.some.injEq, hopen, hclose, decide_false,
        Bool.false_eq_true, if_false]
      omega

theorem Outline.count_unroll (r : Outline) (hk : k ∈ strokes) (hat : At p i r.text) :
    r.unroll.count k = (r.visits i).countP fun x => decide (p[x]? = some k) := by
  induction r generalizing i with
  | last b => exact b.count_unroll hk hat
  | opened b rest ih =>
      have hat' : At p (i + b.length) ('[' :: rest.text) := hat.right
      rw [unroll, visits, List.count_append, List.countP_append, List.countP_cons,
        b.count_unroll hk hat.left, ih hat'.tail, hat'.head]
      simp [(ne_bracket_of_mem_strokes hk).1]

/-- How often a character is written in the unrolled text is a sum over its positions. -/
theorem count_unroll (p : Array Char) (hk : k ∈ strokes) :
    (unroll p.toList).count k =
      ∑ x ∈ Finset.range (cutoff p.toList) with p[x]? = some k, 2 ^ enclosing p.toList x := by
  rw [← countP_visits_ofText p.toList fun x => p[x]? = some k, unroll]
  cases hread : Reading.ofText p.toList with
  | whole r => exact r.count_unroll hk (Machine.at_of_whole hread)
  | cut b after => exact b.count_unroll hk (Machine.at_of_cut hread).left

end Brackets

namespace Machine

open Brackets

/-- In the run of a program every position before the cut is executed twice as often for every pair
of partners around it, and no other position is.  The steps are the sum of these powers, the pauses
their sum over the `S`, and the last ink and heading their sums over the `C` and the `R` modulo
eight. -/
theorem run_counts (p : Array Char) (canvas : Canvas) :
    ∃ ms halt last,
      Walk (start p canvas) ms last ∧ last.step = (.error halt, last) ∧
      halt = (if cutoff p.toList < p.size then .unmatchedClose (cutoff p.toList)
        else .endOfCommands p.size) ∧
      (∀ x : ℕ, (ms.countP fun m => decide (m.index = (x : ℤ))) =
        if x < cutoff p.toList then 2 ^ enclosing p.toList x else 0) ∧
      (∀ m ∈ ms, ∃ x : ℕ, x < cutoff p.toList ∧ m.index = x) ∧
      (start p canvas).run =
        (∑ x ∈ Finset.range (cutoff p.toList), 2 ^ enclosing p.toList x, halt, last) ∧
      (start p canvas).countPauses =
        (∑ x ∈ Finset.range (cutoff p.toList) with p[x]? = some 'S', 2 ^ enclosing p.toList x,
          halt, last) ∧
      (Vocabulary.ordinal last.painter.ink).val =
        (∑ x ∈ Finset.range (cutoff p.toList) with p[x]? = some 'C',
          2 ^ enclosing p.toList x) % 8 ∧
      (Vocabulary.ordinal last.painter.heading).val =
        (∑ x ∈ Finset.range (cutoff p.toList) with p[x]? = some 'R',
          2 ^ enclosing p.toList x) % 8 := by
  obtain ⟨ms, hwalk, hindex, hlooks⟩ := passage_start p canvas
  have hhalt := step_cutoff p ((Easel.centered canvas).draw (unroll p.toList))
  refine ⟨ms, _, _, hwalk, hhalt, ?_, ?_, ?_, ?_, ?_, ?_, ?_⟩
  · have hle := cutoff_le_length p.toList
    rw [Array.length_toList] at hle
    rw [haltOf, Array.length_toList]
    rcases Nat.lt_or_eq_of_le hle with hlt | heq
    · rw [if_pos hlt, if_pos hlt]
    · rw [heq, if_neg (Nat.lt_irrefl _)]
  -- the cursors of the history are the visits of the tree
  · intro x
    have hcount : (ms.countP fun m => decide (m.index = (x : ℤ))) =
        (Reading.ofText p.toList).visits.count x := by
      have hinj : Function.Injective (Nat.cast : ℕ → ℤ) := fun _ _ h => Int.ofNat_inj.mp h
      rw [← List.count_map_of_injective _ _ hinj, ← hindex, List.count, List.countP_map]
      rfl
    rw [hcount]
    split
    · next hlt => exact count_visits_ofText hlt
    · next hge => exact List.count_eq_zero.mpr fun hmem => hge (lt_cutoff_of_mem_visits hmem)
  · intro m hm
    have hmem : m.index ∈ (Reading.ofText p.toList).visits.map Nat.cast :=
      hindex ▸ List.mem_map_of_mem hm
    obtain ⟨x, hx, hcast⟩ := List.mem_map.mp hmem
    exact ⟨x, lt_cutoff_of_mem_visits hx, hcast.symm⟩
  · rw [run_start, length_visits_ofText]
  -- pauses, ink and heading count the characters of the unrolled text
  · rw [countPauses_of_walk hwalk (inside_start p canvas) hhalt, hlooks, List.length_map,
      Easel.length_pauses, count_unroll p (by decide)]
  · rw [← count_unroll p (by decide)]
    refine (Easel.ordinal_ink_draw _ _).trans ?_
    show (0 + _) % 8 = _
    rw [Nat.zero_add]
  · rw [← count_unroll p (by decide)]
    refine (Easel.ordinal_heading_draw _ _).trans ?_
    show (0 + _) % 8 = _
    rw [Nat.zero_add]

end Machine

end LoopPainter
