import LoopPainter.Canvas
import LoopPainter.Heading

/-!
# The painter

A position, a heading and an ink.  A forward step moves one cell along the heading
and wraps around each edge of the canvas on its own, so a painter that stands on
the canvas stays on it.  Wrapping looks only at the two edge coordinates: a
painter placed elsewhere by hand walks on without wrapping.
-/

namespace LoopPainter

/-- A drawing cursor. -/
structure Painter where
  x : Int := 0
  y : Int := 0
  heading : Heading := .up
  ink : Color := .white
  deriving DecidableEq, Repr

namespace Painter

/-- Move a coordinate by `delta` on a ring of `size` cells. -/
def wrapStep (coordinate delta : Int) (size : Nat) : Int :=
  if delta < 0 ∧ coordinate = 0 then size - 1
  else if 0 < delta ∧ coordinate = size - 1 then 0
  else coordinate + delta

/-- The painter in the middle of a canvas, facing up, with white ink. -/
def centeredOn (c : Canvas) : Painter where
  x := ((c.width - 1) / 2 : Nat)
  y := ((c.height - 1) / 2 : Nat)

/-- Take the next ink. -/
def changeColor (p : Painter) : Painter :=
  { p with ink := Vocabulary.next p.ink }

/-- Turn one eighth of a turn clockwise. -/
def rotate (p : Painter) : Painter :=
  { p with heading := Vocabulary.next p.heading }

/-- Move one cell along the heading on a canvas of the given size. -/
def advance (p : Painter) (width height : Nat) : Painter :=
  { p with x := wrapStep p.x p.heading.dx width, y := wrapStep p.y p.heading.dy height }

/-- Move one cell along the heading and paint the new cell.  If the new cell is not on
the canvas, nothing is painted, but the painter has moved. -/
def forward (p : Painter) (c : Canvas) : Painter × Except Canvas.Fault Canvas :=
  let p := p.advance c.width c.height
  (p, c.set p.x p.y p.ink)

/-- The painter in words. -/
def display (p : Painter) : String :=
  "Painter(x=" ++ Text.intString p.x ++ ", y=" ++ Text.intString p.y ++ ", direction=" ++
    Vocabulary.display p.heading ++ ", color=" ++ Vocabulary.display p.ink ++ ")"

theorem wrapStep_nonneg {coordinate delta : Int} {size : Nat} (h : 0 ≤ coordinate)
    (hlt : coordinate < size) (hd : -1 ≤ delta) : 0 ≤ wrapStep coordinate delta size := by
  unfold wrapStep
  split
  · omega
  · split <;> omega

theorem wrapStep_lt {coordinate delta : Int} {size : Nat} (h : 0 ≤ coordinate)
    (hlt : coordinate < size) (hd : delta ≤ 1) : wrapStep coordinate delta size < size := by
  unfold wrapStep
  split
  · omega
  · split <;> omega

/-- A painter on the canvas stays on it. -/
theorem inside_advance {c : Canvas} {p : Painter} (h : c.Inside p.x p.y) :
    c.Inside (p.advance c.width c.height).x (p.advance c.width c.height).y := by
  obtain ⟨hx, hxw, hy, hyh⟩ := h
  have hdx : -1 ≤ p.heading.dx ∧ p.heading.dx ≤ 1 := by cases p.heading <;> decide
  have hdy : -1 ≤ p.heading.dy ∧ p.heading.dy ≤ 1 := by cases p.heading <;> decide
  exact ⟨wrapStep_nonneg hx hxw hdx.1, wrapStep_lt hx hxw hdx.2,
    wrapStep_nonneg hy hyh hdy.1, wrapStep_lt hy hyh hdy.2⟩

/-- The middle of a canvas is on it. -/
theorem inside_centeredOn (c : Canvas) : c.Inside (centeredOn c).x (centeredOn c).y := by
  have hw := c.width_pos
  have hh := c.height_pos
  refine ⟨?_, ?_, ?_, ?_⟩ <;> simp only [centeredOn] <;> omega

end Painter

end LoopPainter
