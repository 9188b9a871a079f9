import LoopPainter.Proofs.Easel
import Mathlib.Data.Int.Notation
import Mathlib.Logic.Function.Basic

/-!
# The cells of a grid

`Cell w h` are the coordinates on a grid of `w` by `h`, so a cell of a canvas carries the proof that
it lies there.  `Canvas.shade` reads a cell; a canvas is given by its size and the shade of every
cell (`Canvas.ofCells`, `Canvas.ofCells_shade`), and painting updates one shade (`Canvas.put_ofCells`).

On the grid the edge cases of the wrap are a remainder (`Painter.wrapStep_eq_emod`).
-/

namespace LoopPainter

/-- A place on a grid. -/
abbrev Cell (w h : ℕ) : Type :=
  { q : ℤ × ℤ // 0 ≤ q.1 ∧ q.1 < w ∧ 0 ≤ q.2 ∧ q.2 < h }

namespace Painter

variable {x d : ℤ} {size : ℕ}

theorem wrapStep_eq_emod (h : 0 ≤ x) (hlt : x < size) (hd : -1 ≤ d) (hd' : d ≤ 1) :
    wrapStep x d size = (x + d) % size := by
  unfold wrapStep
  split
  · next hback =>
      have heq : x + d = size - 1 + size * (-1 : ℤ) := by omega
      rw [heq, Int.add_mul_emod_self_left, Int.emod_eq_of_lt (by omega) (by omega)]
  · split
    · next hover =>
        have heq : x + d = size := by omega
        rw [heq, Int.emod_self]
    · rw [Int.emod_eq_of_lt (by omega) (by omega)]

end Painter

theorem Heading.delta_bounds (d : Heading) :
    (-1 ≤ d.dx ∧ d.dx ≤ 1) ∧ (-1 ≤ d.dy ∧ d.dy ≤ 1) := by
  cases d <;> decide

/-- The next cell along a heading. -/
def Cell.ahead {w h : ℕ} (q : Cell w h) (d : Heading) : Cell w h where
  val := (Painter.wrapStep q.1.1 d.dx w, Painter.wrapStep q.1.2 d.dy h)
  property := by
    obtain ⟨⟨x, y⟩, hx, hxw, hy, hyh⟩ := q
    obtain ⟨⟨hdx, hdx'⟩, hdy, hdy'⟩ := d.delta_bounds
    exact ⟨Painter.wrapStep_nonneg hx hxw hdx, Painter.wrapStep_lt hx hxw hdx',
      Painter.wrapStep_nonneg hy hyh hdy, Painter.wrapStep_lt hy hyh hdy'⟩

/-- The cell on which the painter stands. -/
def Easel.cell (s : Easel) : Cell s.canvas.width s.canvas.height :=
  ⟨(s.painter.x, s.painter.y), s.inside⟩

attribute [ext] Easel

namespace Canvas

variable {c : Canvas} {w h : ℕ} {hw : 0 < w} {hh : 0 < h}

/-- The color of a cell. -/
def shade (c : Canvas) (q : Cell c.width c.height) : Color :=
  c.color q.1.1 q.1.2 q.2

/-- The canvas with a given shade of every cell. -/
def ofCells (w h : ℕ) (hw : 0 < w) (hh : 0 < h) (f : Cell w h → Color) : Canvas where
  width := w
  height := h
  cells := Array.ofFn fun k : Fin (w * h) =>
    f ⟨((k.val % w : ℕ), (k.val / w : ℕ)), by
      have hx := Nat.mod_lt k.val hw
      have hy := Nat.div_lt_of_lt_mul k.isLt
      exact ⟨Int.natCast_nonneg _, Int.ofNat_lt.mpr hx, Int.natCast_nonneg _, Int.ofNat_lt.mpr hy⟩⟩
  width_pos := hw
  height_pos := hh
  size_cells := Array.size_ofFn

theorem place_mod (q : Cell c.width c.height) :
    (((c.place q.1.1 q.1.2 % c.width : ℕ) : ℤ),
      ((c.place q.1.1 q.1.2 / c.width : ℕ) : ℤ)) = q.1 := by
  obtain ⟨⟨x, y⟩, hx, hxw, hy, hyh⟩ := q
  have hlt : x.toNat < c.width := by omega
  simp only [place, Nat.mul_comm _ c.width, Nat.mul_add_mod_self_left, Nat.mod_eq_of_lt hlt,
    Nat.mul_add_div c.width_pos, Nat.div_eq_of_lt hlt, Prod.mk.injEq]
  omega

theorem shade_ofCells (f : Cell w h → Color) : (ofCells w h hw hh f).shade = f := by
  funext q
  simp only [shade, color, ofCells, Array.getElem_ofFn]
  congr 1
  exact Subtype.ext (place_mod (c := ofCells w h hw hh f) q)

theorem ofCells_shade (c : Canvas) :
    ofCells c.width c.height c.width_pos c.height_pos c.shade = c := by
  obtain ⟨w, h, cells, hw, hh, hsize⟩ := c
  unfold ofCells
  congr 1
  refine Array.ext (Array.size_ofFn.trans hsize.symm) ?_
  intro k hk hk'
  rw [Array.getElem_ofFn]
  simp only [shade, color, place, Int.toNat_natCast, Nat.div_add_mod']

/-- Painting a cell changes its shade and no other. -/
theorem shade_put (q : Cell c.width c.height) (ink : Color) :
    (c.put q.1.1 q.1.2 q.2 ink).shade = Function.update c.shade q ink := by
  refine (Function.update_eq_iff.mpr ⟨color_put_self.symm, ?_⟩).symm
  intro r hne
  refine (color_put_of_ne (c := c) r.2 ?_).symm
  intro heq
  exact hne (Subtype.ext (Prod.ext heq.1.symm heq.2.symm))

theorem put_ofCells (f : Cell w h → Color) (q : Cell w h) (ink : Color) :
    (ofCells w h hw hh f).put q.1.1 q.1.2 q.2 ink =
      ofCells w h hw hh (Function.update f q ink) := by
  have hshade := shade_put (c := ofCells w h hw hh f) q ink
  rw [shade_ofCells] at hshade
  exact (ofCells_shade _).symm.trans (congrArg (ofCells w h hw hh) hshade)

end Canvas

end LoopPainter
