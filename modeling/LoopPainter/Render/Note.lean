import LoopPainter.Job

/-!
# Notes of a render

A render reports what it does in notes.  It neither logs nor prints them: that is up to
whoever asked for the render.
-/

namespace LoopPainter

/-- How much a report matters. -/
inductive Severity where
  | debug
  | info
  | warning
  deriving DecidableEq, Repr

/-- A step of a render that is worth reporting. -/
inductive Note where
  | started (job : Job)
  | jumped (close start : Int)
  | captured (count : Nat)
  | executed (steps : Nat) (position : Int × Int)
  | noFrames (interval : Nat)
  | savedAnimation (frames : Nat) (path : Path)
  | savedImage (width height : Nat) (path : Path)
  | savedSummary (path : Path)
  deriving DecidableEq

namespace Note

/-- How much a note matters. -/
def severity : Note → Severity
  | jumped .. | captured _ => .debug
  | noFrames _ => .warning
  | _ => .info

/-- The part of the program that a note comes from. -/
def source : Note → String
  | jumped .. => "cfrs.interpreter.executor"
  | captured _ | savedAnimation .. => "cfrs.export.animation"
  | savedImage .. => "cfrs.export.image"
  | _ => "cfrs.render"

/-- A position in parentheses. -/
def pointText (p : Int × Int) : String :=
  "(" ++ Text.intString p.1 ++ ", " ++ Text.intString p.2 ++ ")"

/-- A size, such as `3x2`. -/
def sizeText (width height : Nat) : String :=
  Text.natString width ++ "x" ++ Text.natString height

/-- Whether a note tells a number that has too many digits to be written. -/
def hasLongNumber : Note → Bool
  | noFrames ms => Text.isTooLong ms
  | _ => false

/-- The text of a note. -/
def message : Note → String
  | started j =>
    "Rendering " ++ sizeText j.width.val j.height.val ++ " (" ++ j.background.word ++
      " background) to " ++ j.output.val.toString
  | jumped close start =>
    "Loop at " ++ Text.intString close ++ " jumps back to " ++ Text.intString start
  | captured n => "Captured frame " ++ Text.natString n
  | executed n p =>
    "Executed " ++ Text.natString n ++ " steps, painter at " ++ pointText p
  | noFrames ms =>
    "No frames sampled (program has too few S pauses for " ++ Text.natString ms ++
      " ms interval); writing the final canvas as a single frame"
  | savedAnimation n path =>
    "Saved " ++ Text.natString n ++ "-frame animation to " ++ path.toString
  | savedImage width height path =>
    "Saved " ++ sizeText width height ++ " image to " ++ path.toString
  | savedSummary path => "Wrote run summary to " ++ path.toString

end Note

end LoopPainter
