import LoopPainter.Canvas
import LoopPainter.Datum
import LoopPainter.Path

/-!
# Render jobs

A job says what to draw and where to: a program, the canvas it runs on, and the file that
the result is written to.  The limits that a job has to keep are part of its type, so
whatever accepts a job need not check them again.

`toDatum` lists the fields of a job under their keys.
-/

namespace LoopPainter

/-- The longest side of a canvas, in pixels. -/
def maxSide : Nat := 16384

/-- The length of a side of a canvas. -/
abbrev Side : Type :=
  { n : Nat // 0 < n ∧ n ≤ maxSide }

/-- A time between frames, in milliseconds. -/
abbrev Interval : Type :=
  { n : Nat // 0 < n }

/-- A path whose suffix tells a format. -/
abbrev OutputPath : Type :=
  { p : Path // p.suffix ≠ "" }

/-- A drawing to be made. -/
structure Job where
  width : Side
  height : Side
  background : Color
  interval : Interval
  output : OutputPath
  commands : String
  summary : Option Path
  deriving DecidableEq

namespace Job

/-- The fields of a job, in the order in which they are listed. -/
inductive Field where
  | schema
  | width
  | height
  | background
  | interval
  | output
  | commands
  | summary
  deriving DecidableEq, Repr

/-- The key of a field. -/
def Field.key : Field → String
  | .schema => "schema"
  | .width => "width"
  | .height => "height"
  | .background => "background"
  | .interval => "interval_ms"
  | .output => "output"
  | .commands => "commands"
  | .summary => "summary"

/-- The only schema there is. -/
def schemaName : String := "render_job.v1"

/-! ## Defaults -/

/-- The side of a canvas of which no size is given. -/
def defaultSide : Side := ⟨256, by decide⟩

/-- The background where none is given. -/
def defaultBackground : Color := .black

/-- The time between frames where none is given. -/
def defaultInterval : Interval := ⟨100, by decide⟩

/-! ## Views -/

/-- The suffixes of files that show the drawing as it comes about. -/
def animationSuffixes : List String := [".gif"]

/-- The job asks for an animation. -/
def animated (j : Job) : Bool :=
  animationSuffixes.contains j.output.val.lowerSuffix

/-- The canvas that the program starts on. -/
def canvas (j : Job) : Canvas :=
  Canvas.blank j.width.val j.height.val j.width.property.1 j.height.property.1 j.background

/-- A color among the values of a mapping: it stands by its word. -/
def colorValue (c : Color) : Datum :=
  .text c.word

/-- The value of a field. -/
def value (j : Job) : Field → Datum
  | .schema => .text schemaName
  | .width => .int j.width.val
  | .height => .int j.height.val
  | .background => colorValue j.background
  | .interval => .int j.interval.val
  | .output => .text j.output.val.toString
  | .commands => .text j.commands
  | .summary =>
    match j.summary with
    | none => .null
    | some p => .text p.toString

/-- The fields in the order in which they are listed. -/
def Field.all : List Field :=
  [schema, width, height, background, interval, output, commands, summary]

/-- The fields of a job under their keys. -/
def toPairs (j : Job) : List (Datum × Datum) :=
  Field.all.map fun f => (.text f.key, j.value f)

/-- A job as a mapping. -/
def toDatum (j : Job) : Datum :=
  .map j.toPairs

end Job

end LoopPainter
