import LoopPainter.Proofs.Displacement
import LoopPainter.Proofs.Machine.Painted
import Mathlib.Algebra.Order.Interval.Finset.SuccPred
import Mathlib.Data.Int.ModEq
import Mathlib.Data.Nat.SuccPred
import Mathlib.Order.Interval.Finset.Nat

/-!
# Straight laps

A painter who only steps forward goes around the torus in a straight line.  Two steps bring it to
the same cell exactly if their numbers differ by a multiple of `Heading.lap`, which is the width,
the height or, for a heading with a part of both, the least common multiple of the two
(`Painter.spot_eq_iff`).  What follows is counting: the first return to the start is after one lap,
and `n` steps paint `min n lap` cells (`card_image_Icc`).
-/

namespace LoopPainter

/-! ## Sequences with a period -/

/-- A sequence that repeats itself exactly at the multiples of `period` has no more values than
that. -/
theorem card_image_Icc {α : Type*} [DecidableEq α] {f : ℕ → α} {period : ℕ} (hpos : 0 < period)
    (hf : ∀ j k, f j = f k ↔ (period : ℤ) ∣ k - j) (n : ℕ) :
    ((Finset.Icc 1 n).image f).card = min n period := by
  -- within one period nothing is repeated
  have hfirst : ∀ m ≤ period, ((Finset.Icc 1 m).image f).card = m := by
    intro m hm
    have hinj : Set.InjOn f (Finset.Icc 1 m) := by
      intro j hj k hk heq
      rw [Finset.coe_Icc, Set.mem_Icc] at hj hk
      have hzero : (k : ℤ) - j = 0 :=
        Int.eq_zero_of_abs_lt_dvd ((hf j k).mp heq) (abs_lt.mpr ⟨by omega, by omega⟩)
      omega
    rw [Finset.card_image_of_injOn hinj, Nat.card_Icc, Nat.add_sub_cancel]
  rcases Nat.le_total n period with hle | hle
  · rw [hfirst n hle, Nat.min_eq_left hle]
  · -- and later values are those of the first period again
    have himage : (Finset.Icc 1 n).image f = (Finset.Icc 1 period).image f := by
      refine Finset.Subset.antisymm ?_ (Finset.image_subset_image (Finset.Icc_subset_Icc_right hle))
      intro a ha
      obtain ⟨k, hk, rfl⟩ := Finset.mem_image.mp ha
      rw [Finset.mem_Icc] at hk
      have hlt := Nat.mod_lt (k - 1) hpos
      have hdiv := Nat.div_add_mod (k - 1) period
      refine Finset.mem_image.mpr
        ⟨(k - 1) % period + 1, Finset.mem_Icc.mpr ⟨by omega, by omega⟩, ?_⟩
      refine (hf _ _).mpr ⟨((k - 1) / period : ℕ), ?_⟩
      rw [← Nat.cast_mul]
      omega
    rw [himage, hfirst period le_rfl, Nat.min_eq_right hle]

/-! ## The line of a painter -/

/-- The number of steps of one lap on a torus. -/
def Heading.lap (w h : ℕ) : Heading → ℕ
  | .left | .right => w
  | .up | .down => h
  | .upRight | .downRight | .downLeft | .upLeft => Nat.lcm w h

theorem Heading.lap_pos {w h : ℕ} (hw : 0 < w) (hh : 0 < h) (d : Heading) : 0 < d.lap w h := by
  cases d <;> simp [lap, hw, hh]

theorem Heading.lap_dvd_iff (w h : ℕ) (d : Heading) (m : ℤ) :
    (d.lap w h : ℤ) ∣ m ↔ (w : ℤ) ∣ m * d.dx ∧ (h : ℤ) ∣ m * d.dy := by
  have hlcm : ((Nat.lcm w h : ℕ) : ℤ) ∣ m ↔ (w : ℤ) ∣ m ∧ (h : ℤ) ∣ m := by
    rw [Int.natCast_dvd, Int.natCast_dvd, Int.natCast_dvd, Nat.lcm_dvd_iff]
  cases d <;> simp [lap, dx, dy, hlcm]

namespace Painter

/-- The cell to which the `k`-th step in a straight line leads on a torus. -/
def spot (p : Painter) (w h k : ℕ) : ℤ × ℤ :=
  ((p.x + k * p.heading.dx) % w, (p.y + k * p.heading.dy) % h)

theorem emod_add_mul_eq_iff (x d : ℤ) (size j k : ℕ) :
    (x + j * d) % size = (x + k * d) % size ↔ (size : ℤ) ∣ (k - j) * d := by
  rw [← Int.ModEq, Int.modEq_iff_dvd, add_sub_add_left_eq_sub, ← sub_mul]

/-- Two steps of a straight line meet exactly if whole laps lie between them. -/
theorem spot_eq_iff (p : Painter) (w h j k : ℕ) :
    p.spot w h j = p.spot w h k ↔ (p.heading.lap w h : ℤ) ∣ k - j := by
  rw [spot, spot, Prod.mk.injEq, emod_add_mul_eq_iff, emod_add_mul_eq_iff, Heading.lap_dvd_iff]

/-! ## Marching -/

/-- Step forward `n` times, painting. A step that is refused is the last one. -/
def march : ℕ → Painter → Canvas → Painter × Except Canvas.Fault Canvas
  | 0, p, c => (p, .ok c)
  | n + 1, p, c =>
    match p.forward c with
    | (p, .ok c) => march n p c
    | (p, .error fault) => (p, .error fault)

end Painter

namespace Easel

theorem march_eq (s : Easel) (n : ℕ) :
    s.painter.march n s.canvas =
      ((s.draw (List.replicate n 'F')).painter, .ok (s.draw (List.replicate n 'F')).canvas) := by
  induction n generalizing s with
  | zero => rfl
  | succ n ih =>
      rw [Painter.march, s.forward_painter]
      exact ih s.forward

theorem displacement_replicate (d : Heading) (n : ℕ) :
    displacement d (List.replicate n 'F') = (n * d.dx, n * d.dy) := by
  induction n with
  | zero => simp [Prod.zero_eq_mk]
  | succ n ih =>
      have hstep : displacement d (List.replicate (n + 1) 'F') =
          d.delta + displacement d (List.replicate n 'F') := rfl
      rw [hstep, ih, Heading.delta, Prod.mk_add_mk]
      push_cast
      rw [add_comm, add_comm (d.dy), add_one_mul, add_one_mul]

theorem pen_march (s : Easel) (n : ℕ) :
    (s.draw (List.replicate n 'F')).painter.heading = s.painter.heading ∧
      (s.draw (List.replicate n 'F')).painter.ink = s.painter.ink := by
  rw [heading_draw, ink_draw]
  simp [List.count_replicate]

/-- A straight line leads from spot to spot. -/
theorem painter_march (s : Easel) (n : ℕ) :
    (s.draw (List.replicate n 'F')).painter =
      { s.painter with
        x := (s.painter.spot s.canvas.width s.canvas.height n).1
        y := (s.painter.spot s.canvas.width s.canvas.height n).2 } := by
  obtain ⟨hx, hy⟩ := s.position_draw (List.replicate n 'F')
  obtain ⟨hheading, hink⟩ := s.pen_march n
  rw [displacement_replicate] at hx hy
  generalize (s.draw (List.replicate n 'F')).painter = q at hx hy hheading hink ⊢
  calc q = ⟨q.x, q.y, q.heading, q.ink⟩ := rfl
    _ = _ := by rw [hx, hy, hheading, hink]; rfl

theorem get_forward (s : Easel) (x y : ℤ) :
    s.forward.canvas.get x y =
      if (s.forward.painter.x, s.forward.painter.y) = (x, y) then .ok s.painter.ink
      else s.canvas.get x y := by
  simp only [Prod.mk.injEq]
  exact Canvas.get_put (Painter.inside_advance s.inside) _

/-- The cells of a straight line show the ink, and all others what they showed before. -/
theorem get_march (s : Easel) (n : ℕ) (x y : ℤ) :
    (s.draw (List.replicate n 'F')).canvas.get x y =
      if (x, y) ∈ (Finset.Icc 1 n).image (s.painter.spot s.canvas.width s.canvas.height)
      then .ok s.painter.ink else s.canvas.get x y := by
  induction n with
  | zero => rfl
  | succ n ih =>
      have hlast : s.draw (List.replicate (n + 1) 'F') =
          (s.draw (List.replicate n 'F')).forward := by
        rw [List.replicate_succ', draw_append]
        rfl
      have hspot := s.painter_march (n + 1)
      rw [hlast] at hspot ⊢
      -- the last step paints the spot onto which it leads, in the ink of the first
      have hput : (s.draw (List.replicate n 'F')).forward.canvas.get x y =
          if s.painter.spot s.canvas.width s.canvas.height (n + 1) = (x, y)
          then .ok s.painter.ink else (s.draw (List.replicate n 'F')).canvas.get x y := by
        rw [get_forward, hspot, (s.pen_march n).2]
      rw [hput, ih, ← Finset.insert_Icc_right_eq_Icc_add_one (Nat.le_add_left 1 n),
        Finset.image_insert]
      by_cases hnew : s.painter.spot s.canvas.width s.canvas.height (n + 1) = (x, y)
      · rw [if_pos hnew, if_pos (Finset.mem_insert.mpr (.inl hnew.symm))]
      · simp only [hnew, Ne.symm hnew, Finset.mem_insert, false_or, if_false]

end Easel

open Painter

/-- From anywhere on a canvas `n` steps in a straight line lead `n` times the heading on, by the
remainders of width and height.  The first return is after one lap.  Exactly the spots of the steps
are painted, which are as many as the steps until the first return and no more afterwards. -/
theorem march_laps (c : Canvas) (p : Painter) (hin : c.Inside p.x p.y) (n : ℕ) :
    ∃ d : Canvas,
      p.march n c = ({ p with
        x := (p.x + n * p.heading.dx) % c.width
        y := (p.y + n * p.heading.dy) % c.height }, .ok d) ∧
      IsLeast {k | 0 < k ∧ (p.march k c).1.x = p.x ∧ (p.march k c).1.y = p.y}
        (p.heading.lap c.width c.height) ∧
      ((Finset.Icc 1 n).image (p.spot c.width c.height)).card =
        min n (p.heading.lap c.width c.height) ∧
      (d.width = c.width ∧ d.height = c.height) ∧
      ∀ x y, d.get x y = if (x, y) ∈ (Finset.Icc 1 n).image (p.spot c.width c.height)
        then .ok p.ink else c.get x y := by
  have hmarch : ∀ k, p.march k c = ({ p with
      x := (p.spot c.width c.height k).1
      y := (p.spot c.width c.height k).2 },
        .ok ((Easel.mk c p hin).draw (List.replicate k 'F')).canvas) := by
    intro k
    have heq := (Easel.mk c p hin).march_eq k
    rw [Easel.painter_march] at heq
    exact heq
  have hlap := p.heading.lap_pos c.width_pos c.height_pos
  -- the start is the spot of no step at all
  have hstart : p.spot c.width c.height 0 = (p.x, p.y) := by
    obtain ⟨hx, hxw, hy, hyh⟩ := hin
    simp [spot, Int.emod_eq_of_lt hx hxw, Int.emod_eq_of_lt hy hyh]
  have hreturn : ∀ k, ((p.march k c).1.x = p.x ∧ (p.march k c).1.y = p.y) ↔
      p.heading.lap c.width c.height ∣ k := by
    intro k
    rw [hmarch, ← Prod.mk.injEq, ← hstart, Prod.mk.eta, eq_comm, spot_eq_iff, Nat.cast_zero,
      sub_zero, Int.natCast_dvd_natCast]
  refine ⟨_, hmarch n, ⟨⟨hlap, (hreturn _).mpr dvd_rfl⟩, ?_⟩,
    card_image_Icc hlap (p.spot_eq_iff _ _) n, (Easel.mk c p hin).size_draw _,
    (Easel.mk c p hin).get_march n⟩
  rintro k ⟨hk, hback⟩
  exact Nat.le_of_dvd hk ((hreturn k).mp hback)

/-- On 4 by 2 cells a painter in the lower right corner heads over it and is back after four steps,
with half of the cells painted. The fifth paints no new one. -/
theorem march_laps_over_corner :
    let c : Canvas := .blank 4 2 (by decide) Nat.two_pos .black
    let p : Painter := ⟨3, 1, .downRight, .red⟩
    c.Inside p.x p.y ∧ ∃ d : Canvas, p.march 5 c = (⟨0, 0, .downRight, .red⟩, .ok d) ∧
      IsLeast {k | 0 < k ∧ (p.march k c).1.x = 3 ∧ (p.march k c).1.y = 1} 4 ∧
      ((Finset.Icc 1 5).image (p.spot 4 2)).card = 4 ∧
      d.get 3 1 = .ok .red ∧ d.get 1 0 = .ok .black := by
  intro c p
  have hin : c.Inside p.x p.y := by decide
  have hlap : p.heading.lap c.width c.height = 4 := by decide
  obtain ⟨d, hmarch, hleast, hcard, -, hget⟩ := march_laps c p hin 5
  have hend : ({ p with
      x := (p.x + (5 : ℕ) * p.heading.dx) % c.width
      y := (p.y + (5 : ℕ) * p.heading.dy) % c.height } : Painter) = ⟨0, 0, .downRight, .red⟩ := by
    decide
  rw [hlap] at hleast hcard
  rw [hend] at hmarch
  refine ⟨hin, d, hmarch, hleast, hcard, ?_, ?_⟩
  · rw [hget, if_pos (by decide)]
  · rw [hget, if_neg (by decide)]
    rfl

end LoopPainter
