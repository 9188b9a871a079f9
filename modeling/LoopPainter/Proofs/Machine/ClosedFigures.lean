import LoopPainter.Proofs.Displacement
import LoopPainter.Proofs.Machine.Counts

/-!
# Closed figures

Three loops around a text draw it eight times.  If one pass turns the painter by `r` headings, the
passes start in the headings `d`, `d + r`, `d + 2 * r` and so on.  Unless `r` is a multiple of eight,
each of the headings that come up comes up as often as the opposite one, so that whatever steps a
pass takes, all eight together lead nowhere (`sum_displacement_eq_zero`).  If `r` is a multiple of
eight, all passes are alike.

`closed_figure` says so of the machine, wherever in a program the loops stand.
-/

namespace LoopPainter

open Vocabulary (advance)

/-! ## Eight passes -/

theorem count_passes (l : List Char) (n : ℕ) (c : Char) :
    (List.replicate n l).flatten.count c = n * l.count c := by
  simp [List.count_flatten]

theorem displacement_passes (d : Heading) (l : List Char) (n : ℕ) :
    displacement d (List.replicate n l).flatten =
      ∑ k ∈ Finset.range n, displacement (advance (k * l.count 'R') d) l := by
  induction n with
  | zero => rfl
  | succ n ih =>
      rw [List.replicate_succ', List.flatten_append, displacement_append, ih, count_passes,
        Finset.sum_range_succ, List.flatten_singleton]

/-- Turning by no multiple of eight headings at a time, one comes through each heading as often as
through the opposite one. -/
theorem sum_delta_eq_zero {r : ℕ} (hr : ¬ 8 ∣ r) (d : Heading) :
    ∑ k ∈ Finset.range 8, (advance (k * r) d).delta = 0 := by
  -- only the remainder of `r` counts, so that there are few cases
  have hall : ∀ r < 8, r ≠ 0 → ∀ i : Fin 8,
      ∑ k ∈ Finset.range 8, (advance (k * r) (Heading.ofOrdinal i)).delta = 0 := by
    decide
  have hmod : ∀ k, advance (k * r) d = advance (k * (r % 8)) d := by
    intro k
    rw [Vocabulary.eq_advance_iff, Vocabulary.ordinal_advance, ← Nat.add_mod_mod, ← Nat.mul_mod_mod,
      Nat.add_mod_mod]
  have hd : Heading.ofOrdinal (Vocabulary.ordinal d) = d := Vocabulary.ofOrdinal_ordinal d
  simp only [hmod]
  rw [← hd]
  exact hall _ (Nat.mod_lt _ (by decide)) (fun h => hr (Nat.dvd_of_mod_eq_zero h)) _

theorem sum_displacement_eq_zero {r : ℕ} (hr : ¬ 8 ∣ r) (d : Heading) (l : List Char) :
    ∑ k ∈ Finset.range 8, displacement (advance (k * r) d) l = 0 := by
  induction l generalizing d with
  | nil => simp
  | cons c l ih =>
      -- a turn at the front leaves the headings of the passes `r` apart
      have hcomm : ∀ k, advance ([c].count 'R') (advance (k * r) d) =
          advance (k * r) (advance ([c].count 'R') d) := by
        intro k
        rw [← Vocabulary.advance_add, ← Vocabulary.advance_add, Nat.add_comm]
      have hfirst : ∑ k ∈ Finset.range 8, displacement (advance (k * r) d) [c] = 0 := by
        by_cases hF : c = 'F'
        · subst hF
          have hstep : ∀ d, displacement d ['F'] = d.delta := fun d => add_zero d.delta
          simp only [hstep]
          exact sum_delta_eq_zero hr d
        · have hnone : ∀ d, displacement d [c] = 0 := by
            intro d
            simp [displacement, hF]
          simp only [hnone, Finset.sum_const_zero]
      simp only [displacement_cons _ c l, Finset.sum_add_distrib, hfirst, hcomm, ih, add_zero]

/-- Eight passes lead eight times as far as one if they are all alike, and nowhere else. -/
theorem displacement_eight_passes (d : Heading) (l : List Char) :
    displacement d (List.replicate 8 l).flatten =
      if 8 ∣ l.count 'R' then 8 • displacement d l else 0 := by
  rw [displacement_passes]
  split
  · next hr =>
      have halike : ∀ k, advance (k * l.count 'R') d = d :=
        fun k => Vocabulary.advance_of_dvd (Dvd.dvd.mul_left hr k) d
      simp only [halike, Finset.sum_const, Finset.card_range]
  · next hr => exact sum_displacement_eq_zero hr d l

namespace Brackets

/-- Three loops around a block. -/
def Block.thrice (b : Block) : Block :=
  .loop (.loop (.loop b .done) .done) .done

namespace Block

theorem text_thrice (b : Block) : b.thrice.text = "[[[".toList ++ b.text ++ "]]]".toList := by
  simp [thrice, text]

theorem length_thrice (b : Block) : b.thrice.length = b.length + 6 := by
  simp [thrice]

theorem unroll_thrice (b : Block) : b.thrice.unroll = (List.replicate 8 b.unroll).flatten := by
  simp [thrice, unroll, List.replicate]

end Block

end Brackets

namespace Machine

open Brackets

/-- Three loops around a text in which every bracket has its partner are left right behind them,
with the loops and the fired brackets, the heading and the ink of the beginning.  One pass of the
text may lead anywhere; the painter has gone eight times as far, around the edges, if the turns of
one pass are a multiple of eight, and is back where it was if they are not. -/
theorem closed_figure {text : List Char} (hbalanced : Balanced text) (p : Array Char) (s : Easel)
    (i : ℕ) (starts fired : List ℤ) (hat : At p i ("[[[".toList ++ text ++ "]]]".toList))
    (hunfired : Unfired fired i (text.length + 6)) :
    ∃ ms t, Walk (place p s i starts fired) ms
        (place p t (i + (text.length + 6) : ℕ) starts fired) ∧
      (∀ m ∈ ms, i ≤ m.index ∧ m.index < i + (text.length + 6 : ℕ)) ∧
      t.painter.heading = s.painter.heading ∧ t.painter.ink = s.painter.ink ∧
      (8 ∣ (unroll text).count 'R' →
        t.painter.x = (s.painter.x +
          8 * (displacement s.painter.heading (unroll text)).1) % s.canvas.width ∧
        t.painter.y = (s.painter.y +
          8 * (displacement s.painter.heading (unroll text)).2) % s.canvas.height) ∧
      (¬ 8 ∣ (unroll text).count 'R' →
        t.painter.x = s.painter.x ∧ t.painter.y = s.painter.y) := by
  obtain ⟨b, rfl⟩ := hbalanced.exists_block
  rw [← b.text_thrice] at hat
  rw [b.length_text, ← b.length_thrice] at hunfired ⊢
  rw [unroll_text]
  -- three loops around the text are eight passes of it
  obtain ⟨ms, hwalk, hindex, -⟩ := passage_block b.thrice p s i starts fired hat hunfired
  rw [b.unroll_thrice] at hwalk
  -- eight passes turn the heading and the ink by a multiple of eight
  have hcount : ∀ c, 8 ∣ (List.replicate 8 b.unroll).flatten.count c := by
    intro c
    rw [count_passes]
    exact Nat.dvd_mul_right 8 _
  obtain ⟨hx, hy⟩ := s.position_draw (List.replicate 8 b.unroll).flatten
  rw [displacement_eight_passes] at hx hy
  refine ⟨ms, _, hwalk, ?_, ?_, ?_, ?_, ?_⟩
  · intro m hm
    obtain ⟨k, hk, hcast⟩ := List.mem_map.mp (hindex ▸ List.mem_map_of_mem hm)
    have := b.thrice.bounds_of_mem_visits hk
    omega
  · rw [s.heading_draw, Vocabulary.advance_of_dvd (hcount 'R')]
  · rw [s.ink_draw, Vocabulary.advance_of_dvd (hcount 'C')]
  · intro hr
    rw [hx, hy, if_pos hr]
    simp
  · intro hr
    obtain ⟨hx', hxw, hy', hyh⟩ := s.inside
    rw [hx, hy, if_neg hr]
    simp [Int.emod_eq_of_lt hx' hxw, Int.emod_eq_of_lt hy' hyh]

/-- Two loops within three, where another bracket has fired before: the eight passes of `F[R]` take
the painter eight steps in the four straight headings, over the edges of 3 by 2 cells and back. -/
theorem closed_figure_square :
    let p : Array Char := "C[[[F[R]]]]S".toList.toArray
    let s : Easel := ⟨.blank 3 2 (by decide) Nat.two_pos .black, ⟨2, 0, .right, .cyan⟩, by decide⟩
    (Balanced "F[R]".toList ∧ At p 1 "[[[F[R]]]]".toList ∧ Unfired [11] 1 10) ∧
      ∃ ms t, Walk (place p s 1 [0] [11]) ms (place p t 11 [0] [11]) ∧
        (t.painter.x = 2 ∧ t.painter.y = 0) ∧ t.painter.heading = .right := by
  intro p s
  have hbalanced : Balanced "F[R]".toList := by decide
  have hat : At p 1 "[[[F[R]]]]".toList := ⟨['S'], by decide⟩
  have hunfired : Unfired [11] 1 10 := by simp [Unfired]
  obtain ⟨ms, t, hwalk, -, hheading, -, -, hback⟩ :=
    closed_figure hbalanced p s 1 [0] [11] hat hunfired
  exact ⟨⟨hbalanced, hat, hunfired⟩, ms, t, hwalk, hback (by decide), hheading⟩

end Machine

end LoopPainter
