import LoopPainter.Proofs.Cells
import Mathlib.Algebra.Group.Prod
import Mathlib.Algebra.Ring.Int.Defs

/-!
# Where a text takes the painter

A text without loops takes the painter along the sum of the unit displacements of its forward steps,
each in the heading to which the turns before it have led (`displacement`).  Neither the canvas nor
the position has an influence on this sum; the wrap only takes its remainder by the width and by the
height (`Easel.position_draw`).
-/

namespace LoopPainter

open Vocabulary (next advance position)

/-! ## Places further on -/

namespace Vocabulary

variable {α : Type} [Vocabulary α]

theorem ordinal_advance (n : ℕ) (a : α) :
    (ordinal (advance n a)).val = ((ordinal a).val + n) % 8 := by
  rw [advance, ordinal_ofOrdinal, Fin.val_add, position, Fin.val_ofNat, Nat.add_mod_mod]

theorem ordinal_injective {a b : α} (h : (ordinal a).val = (ordinal b).val) : a = b := by
  rw [← ofOrdinal_ordinal a, Fin.ext h, ofOrdinal_ordinal]

theorem eq_advance_iff {n : ℕ} {a b : α} :
    a = advance n b ↔ (ordinal a).val = ((ordinal b).val + n) % 8 := by
  rw [← ordinal_advance]
  exact ⟨fun h => by rw [h], ordinal_injective⟩

@[simp] theorem advance_zero (a : α) : advance 0 a = a :=
  (eq_advance_iff.mpr (Nat.mod_eq_of_lt (ordinal a).isLt).symm).symm

theorem advance_add (m n : ℕ) (a : α) : advance (m + n) a = advance n (advance m a) := by
  rw [eq_advance_iff, ordinal_advance, ordinal_advance]
  omega

theorem advance_succ (n : ℕ) (a : α) : advance (n + 1) a = advance n (next a) := by
  rw [Nat.add_comm, advance_add]
  rfl

/-- Eight places further on is where one was. -/
theorem advance_of_dvd {n : ℕ} (h : 8 ∣ n) (a : α) : advance n a = a := by
  symm
  rw [eq_advance_iff]
  have := (ordinal a).isLt
  omega

end Vocabulary

/-! ## Displacements -/

/-- The displacement of one step. -/
def Heading.delta (d : Heading) : ℤ × ℤ :=
  (d.dx, d.dy)

/-- The sum of the unit displacements of the steps of a text without loops that starts in the
heading `d`. -/
def displacement : Heading → List Char → ℤ × ℤ
  | _, [] => 0
  | d, c :: l =>
    if c = 'R' then displacement (next d) l
    else if c = 'F' then d.delta + displacement d l
    else displacement d l

@[simp] theorem displacement_nil (d : Heading) : displacement d [] = 0 := rfl

theorem displacement_append (d : Heading) (l l' : List Char) :
    displacement d (l ++ l') = displacement d l + displacement (advance (l.count 'R') d) l' := by
  induction l generalizing d with
  | nil => simp
  | cons c l ih =>
      simp only [List.cons_append, displacement, List.count_cons, ih]
      by_cases hR : c = 'R'
      · simp [hR, Vocabulary.advance_succ]
      by_cases hF : c = 'F'
      · simp [hF, add_assoc]
      · simp [hR, hF]

theorem displacement_cons (d : Heading) (c : Char) (l : List Char) :
    displacement d (c :: l) =
      displacement d [c] + displacement (advance ([c].count 'R') d) l :=
  displacement_append d [c] l

/-! ## Drawing -/

namespace Easel

theorem heading_draw (s : Easel) (l : List Char) :
    (s.draw l).painter.heading = advance (l.count 'R') s.painter.heading :=
  Vocabulary.eq_advance_iff.mpr (s.ordinal_heading_draw l)

theorem ink_draw (s : Easel) (l : List Char) :
    (s.draw l).painter.ink = advance (l.count 'C') s.painter.ink :=
  Vocabulary.eq_advance_iff.mpr (s.ordinal_ink_draw l)

/-- One character takes the painter along its displacement, around the edges. -/
theorem position_obey (s : Easel) (c : Char) :
    (s.obey c).painter.x =
        (s.painter.x + (displacement s.painter.heading [c]).1) % s.canvas.width ∧
      (s.obey c).painter.y =
        (s.painter.y + (displacement s.painter.heading [c]).2) % s.canvas.height := by
  obtain ⟨hx, hxw, hy, hyh⟩ := s.inside
  by_cases hF : c = 'F'
  · subst hF
    obtain ⟨⟨hdx, hdx'⟩, hdy, hdy'⟩ := s.painter.heading.delta_bounds
    have hstep : displacement s.painter.heading ['F'] = s.painter.heading.delta := add_zero _
    rw [hstep]
    exact ⟨Painter.wrapStep_eq_emod hx hxw hdx hdx', Painter.wrapStep_eq_emod hy hyh hdy hdy'⟩
  · obtain ⟨-, hsamex, hsamey⟩ := s.obey_of_ne_forward hF
    have hnone : displacement s.painter.heading [c] = 0 := by
      simp [displacement, hF]
    rw [hsamex, hsamey, hnone]
    simp [Int.emod_eq_of_lt hx hxw, Int.emod_eq_of_lt hy hyh]

/-- On the torus a text takes the painter along its displacement. -/
theorem position_draw (s : Easel) (l : List Char) :
    (s.draw l).painter.x =
        (s.painter.x + (displacement s.painter.heading l).1) % s.canvas.width ∧
      (s.draw l).painter.y =
        (s.painter.y + (displacement s.painter.heading l).2) % s.canvas.height := by
  induction l generalizing s with
  | nil =>
      obtain ⟨hx, hxw, hy, hyh⟩ := s.inside
      simp [Int.emod_eq_of_lt hx hxw, Int.emod_eq_of_lt hy hyh]
  | cons c l ih =>
      obtain ⟨hw, hh⟩ := s.size_obey c
      obtain ⟨hx, hy⟩ := s.position_obey c
      obtain ⟨hx', hy'⟩ := ih (s.obey c)
      have hheading := s.heading_draw [c]
      rw [draw_cons, draw_nil] at hheading
      rw [hheading, hx, hw, Int.emod_add_emod, add_assoc] at hx'
      rw [hheading, hy, hh, Int.emod_add_emod, add_assoc] at hy'
      rw [draw_cons, hx', hy', displacement_cons _ c l]
      exact ⟨rfl, rfl⟩

end Easel

end LoopPainter
