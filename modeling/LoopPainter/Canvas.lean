import LoopPainter.Color

/-!
# The canvas

A fixed grid of colors, stored row by row.  The size is part of the value and the
store always has exactly `width * height` cells, so a cell lookup at coordinates
inside the canvas never fails.  Coordinates are integers: those outside, negative
ones included, are refused by `get` and `set`, which then change nothing.
-/

namespace LoopPainter

/-- A grid of colors with at least one cell. -/
structure Canvas where
  width : Nat
  height : Nat
  cells : Array Color
  width_pos : 0 < width
  height_pos : 0 < height
  size_cells : cells.size = width * height
  deriving DecidableEq

namespace Canvas

/-- Why a canvas operation was refused. -/
inductive Fault where
  | emptySize (width height : Int)
  | outside (x y : Int) (width height : Nat)
  deriving DecidableEq, Repr

/-- The text of a complaint. -/
def Fault.message : Fault → String
  | .emptySize w h =>
    "Buffer dimensions must be positive, got " ++ Text.intString w ++ "x" ++ Text.intString h
  | .outside x y w h =>
    "Pixel (" ++ Text.intString x ++ ", " ++ Text.intString y ++ ") outside buffer " ++
      Text.natString w ++ "x" ++ Text.natString h

/-- The canvas of a positive size with one color everywhere. -/
def blank (width height : Nat) (hw : 0 < width) (hh : 0 < height) (color : Color) : Canvas where
  width := width
  height := height
  cells := Array.replicate (width * height) color
  width_pos := hw
  height_pos := hh
  size_cells := Array.size_replicate

/-- The canvas of the given size, which must be positive both ways. -/
def make (width height : Int) (color : Color) : Except Fault Canvas :=
  if h : 0 < width ∧ 0 < height then
    .ok (blank width.toNat height.toNat (by omega) (by omega) color)
  else .error (.emptySize width height)

/-- The coordinates that lie on the canvas. -/
def Inside (c : Canvas) (x y : Int) : Prop :=
  0 ≤ x ∧ x < c.width ∧ 0 ≤ y ∧ y < c.height

instance (c : Canvas) (x y : Int) : Decidable (c.Inside x y) :=
  inferInstanceAs (Decidable (_ ∧ _))

/-- The place of a cell in the row-by-row store. -/
def place (c : Canvas) (x y : Int) : Nat :=
  y.toNat * c.width + x.toNat

theorem place_lt {c : Canvas} {x y : Int} (h : c.Inside x y) : c.place x y < c.cells.size := by
  obtain ⟨hx, hxw, hy, hyh⟩ := h
  have hrow : (y.toNat + 1) * c.width ≤ c.height * c.width :=
    Nat.mul_le_mul_right _ (by omega)
  rw [c.size_cells, place, Nat.mul_comm c.width]
  rw [Nat.add_mul] at hrow
  omega

/-- The color of a cell on the canvas. -/
def color (c : Canvas) (x y : Int) (h : c.Inside x y) : Color :=
  have := place_lt h
  c.cells[c.place x y]

/-- Paint one cell on the canvas. -/
def put (c : Canvas) (x y : Int) (h : c.Inside x y) (ink : Color) : Canvas where
  width := c.width
  height := c.height
  cells := c.cells.set (c.place x y) ink (place_lt h)
  width_pos := c.width_pos
  height_pos := c.height_pos
  size_cells := by rw [Array.size_set, c.size_cells]

/-! ### What painting does to the cells -/

theorem place_inj {c : Canvas} {x y x' y' : Int} (h : c.Inside x y) (h' : c.Inside x' y')
    (he : c.place x y = c.place x' y') : x = x' ∧ y = y' := by
  obtain ⟨hx, hxw, hy, -⟩ := h
  obtain ⟨hx', hxw', hy', -⟩ := h'
  have hm : (c.place x y) % c.width = (c.place x' y') % c.width := by rw [he]
  have hd : (c.place x y) / c.width = (c.place x' y') / c.width := by rw [he]
  have hlt : x.toNat < c.width := by omega
  have hlt' : x'.toNat < c.width := by omega
  simp only [place, Nat.mul_add_mod_self_right, Nat.mod_eq_of_lt hlt, Nat.mod_eq_of_lt hlt'] at hm
  simp only [place, Nat.mul_comm _ c.width, Nat.mul_add_div c.width_pos,
    Nat.div_eq_of_lt hlt, Nat.div_eq_of_lt hlt'] at hd
  omega

@[simp] theorem inside_put {c : Canvas} {x y x' y' : Int} {h : c.Inside x y} {ink : Color} :
    (c.put x y h ink).Inside x' y' ↔ c.Inside x' y' :=
  Iff.rfl

@[simp] theorem color_blank {width height : Nat} {hw : 0 < width} {hh : 0 < height}
    {ink : Color} {x y : Int} {h : (blank width height hw hh ink).Inside x y} :
    (blank width height hw hh ink).color x y h = ink := by
  simp [color, blank]

@[simp] theorem color_put_self {c : Canvas} {x y : Int} {h : c.Inside x y} {ink : Color} :
    (c.put x y h ink).color x y h = ink := by
  simp [color, put, place]

theorem color_put_of_ne {c : Canvas} {x y x' y' : Int} {h : c.Inside x y} {ink : Color}
    (h' : c.Inside x' y') (hne : ¬(x = x' ∧ y = y')) :
    (c.put x y h ink).color x' y' h' = c.color x' y' h' := by
  have : c.place x y ≠ c.place x' y' := fun he => hne (place_inj h h' he)
  exact Array.getElem_set_ne (place_lt h) (place_lt h') this

/-! ### Checked access -/

/-- The complaint about coordinates that are not on the canvas. -/
def outside (c : Canvas) (x y : Int) : Fault :=
  .outside x y c.width c.height

/-- The color at `(x, y)`. -/
def get (c : Canvas) (x y : Int) : Except Fault Color :=
  if h : c.Inside x y then .ok (c.color x y h) else .error (c.outside x y)

/-- Paint the cell at `(x, y)`. -/
def set (c : Canvas) (x y : Int) (ink : Color) : Except Fault Canvas :=
  if h : c.Inside x y then .ok (c.put x y h ink) else .error (c.outside x y)

/-- Paint every cell. -/
def fill (c : Canvas) (ink : Color) : Canvas :=
  blank c.width c.height c.width_pos c.height_pos ink

/-- The number of cells. -/
def size (c : Canvas) : Nat :=
  c.cells.size

/-- The cells row by row. -/
def toList (c : Canvas) : List Color :=
  c.cells.toList

/-- The ordinals of the cells row by row. -/
def ordinals (c : Canvas) : List (Fin 8) :=
  c.toList.map Vocabulary.ordinal

/-- The ordinals as bytes, one for each cell. -/
def bytes (c : Canvas) : List UInt8 :=
  c.ordinals.map fun i => UInt8.ofNat i.val

/-- The cells cut into lines of `width`. -/
def linesOf (width : Nat) : Nat → List α → List (List α)
  | 0, _ => []
  | height + 1, cells => cells.take width :: linesOf width height (cells.drop width)

/-- The ordinals, one list for each row. -/
def ordinalRows (c : Canvas) : List (List (Fin 8)) :=
  linesOf c.width c.height c.ordinals

/-- How many cells have a color. -/
def count (c : Canvas) (color : Color) : Nat :=
  c.cells.count color

/-- The size in words, such as `PixelBuffer(3x2)`. -/
def display (c : Canvas) : String :=
  "PixelBuffer(" ++ Text.natString c.width ++ "x" ++ Text.natString c.height ++ ")"

end Canvas

end LoopPainter
