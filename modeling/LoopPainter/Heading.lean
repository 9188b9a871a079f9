import LoopPainter.Vocabulary

/-!
# Headings

The eight compass headings in the order of the turn command, one eighth of a
turn clockwise each, and the unit displacement of each.  The vertical axis points
down.
-/

namespace LoopPainter

/-- A compass heading. -/
inductive Heading where
  | up
  | upRight
  | right
  | downRight
  | down
  | downLeft
  | left
  | upLeft
  deriving DecidableEq, Repr, Inhabited

namespace Heading

/-- The word for a heading. -/
def word : Heading → String
  | up => "Up"
  | upRight => "UpRight"
  | right => "Right"
  | downRight => "DownRight"
  | down => "Down"
  | downLeft => "DownLeft"
  | left => "Left"
  | upLeft => "UpLeft"

/-- The position of a heading in the clockwise cycle. -/
def ordinal : Heading → Fin 8
  | up => Vocabulary.position 0
  | upRight => Vocabulary.position 1
  | right => Vocabulary.position 2
  | downRight => Vocabulary.position 3
  | down => Vocabulary.position 4
  | downLeft => Vocabulary.position 5
  | left => Vocabulary.position 6
  | upLeft => Vocabulary.position 7

/-- The heading at a position of the cycle. -/
def ofOrdinal (i : Fin 8) : Heading :=
  match i with
  | 0 => up
  | 1 => upRight
  | 2 => right
  | 3 => downRight
  | 4 => down
  | 5 => downLeft
  | 6 => left
  | 7 => upLeft

instance : Vocabulary Heading where
  noun := "direction"
  word := word
  ordinal := ordinal
  ofOrdinal := ofOrdinal
  ofOrdinal_ordinal := by intro a; cases a <;> rfl
  ordinal_ofOrdinal := by decide

/-- The horizontal displacement of one step. -/
def dx : Heading → Int
  | upRight | right | downRight => 1
  | downLeft | left | upLeft => -1
  | up | down => 0

/-- The vertical displacement of one step; down is positive. -/
def dy : Heading → Int
  | downRight | down | downLeft => 1
  | upLeft | up | upRight => -1
  | left | right => 0

end Heading

end LoopPainter
