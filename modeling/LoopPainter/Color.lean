import LoopPainter.Vocabulary

/-!
# Colors and their palette

The eight inks of the painter in the order in which the color command runs
through them, and the red, green, blue and alpha bytes of each.  All inks are
opaque, and no two have the same red, green and blue.
-/

namespace LoopPainter

/-- An ink. -/
inductive Color where
  | white
  | black
  | blue
  | green
  | cyan
  | red
  | magenta
  | yellow
  deriving DecidableEq, Repr, Inhabited

namespace Color

/-- The word for an ink. -/
def word : Color → String
  | white => "White"
  | black => "Black"
  | blue => "Blue"
  | green => "Green"
  | cyan => "Cyan"
  | red => "Red"
  | magenta => "Magenta"
  | yellow => "Yellow"

/-- The position of an ink in the cycle. -/
def ordinal : Color → Fin 8
  | white => Vocabulary.position 0
  | black => Vocabulary.position 1
  | blue => Vocabulary.position 2
  | green => Vocabulary.position 3
  | cyan => Vocabulary.position 4
  | red => Vocabulary.position 5
  | magenta => Vocabulary.position 6
  | yellow => Vocabulary.position 7

/-- The ink at a position of the cycle. -/
def ofOrdinal (i : Fin 8) : Color :=
  match i with
  | 0 => white
  | 1 => black
  | 2 => blue
  | 3 => green
  | 4 => cyan
  | 5 => red
  | 6 => magenta
  | 7 => yellow

instance : Vocabulary Color where
  noun := "color"
  word := word
  ordinal := ordinal
  ofOrdinal := ofOrdinal
  ofOrdinal_ordinal := by intro a; cases a <;> rfl
  ordinal_ofOrdinal := by decide

end Color

/-! ## Palette -/

/-- Red, green and blue. -/
structure Rgb where
  red : UInt8
  green : UInt8
  blue : UInt8
  deriving DecidableEq, Repr, Inhabited

/-- Red, green, blue and opacity. -/
structure Rgba where
  red : UInt8
  green : UInt8
  blue : UInt8
  alpha : UInt8
  deriving DecidableEq, Repr, Inhabited

/-- A pixel without its opacity. -/
def Rgba.dropAlpha (p : Rgba) : Rgb :=
  ⟨p.red, p.green, p.blue⟩

/-- The palette. -/
def Color.rgba : Color → Rgba
  | .black => ⟨0, 0, 0, 255⟩
  | .white => ⟨255, 255, 255, 255⟩
  | .red => ⟨255, 0, 0, 255⟩
  | .green => ⟨0, 255, 0, 255⟩
  | .blue => ⟨0, 0, 255, 255⟩
  | .yellow => ⟨255, 255, 0, 255⟩
  | .cyan => ⟨0, 255, 255, 255⟩
  | .magenta => ⟨255, 0, 255, 255⟩

/-- The palette without opacity. -/
def Color.rgb (c : Color) : Rgb :=
  c.rgba.dropAlpha

end LoopPainter
