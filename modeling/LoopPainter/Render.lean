import LoopPainter.Export
import LoopPainter.Render.Drawing
import LoopPainter.Yaml.File

/-!
# Rendering a job

`render` runs the program of a job to its end, writes the image and, if the job asks for it,
a summary of the run.  A program that breaks off leaves the store as it was.
-/

namespace LoopPainter

/-- What a render has done. -/
structure Rendered where
  output : Path
  steps : Nat
  /-- The number of frames written, zero for a still. -/
  frames : Nat
  position : Int × Int
  summary : Option Path
  deriving DecidableEq, Repr

/-- Why a render failed. -/
inductive RenderFault where
  | program (halt : Machine.Halt)
  | image (fault : ExportFault)
  | summary (fault : SaveFault)
  deriving DecidableEq, Repr

/-- The text of a complaint. -/
def RenderFault.message : RenderFault → String
  | .program halt => halt.message
  | .image fault => fault.message
  | .summary fault => fault.message

namespace Drawing

/-- The number of frames that are written of a drawing. -/
def frameCount (j : Job) (d : Drawing) : Nat :=
  if j.animated then d.frames.length else 0

/-- Write the image of a drawing. -/
def saveImage (j : Job) (d : Drawing) : ExportAction Unit :=
  if j.animated then Export.saveAnimation j.output.val j.interval.val d.frames
  else Export.saveCanvas j.output.val d.machine.canvas

/-- The summary of a run. -/
def summary (j : Job) (d : Drawing) : Datum :=
  .map [(.text "job", j.toDatum), (.text "steps", .int d.steps),
    (.text "frames", .int (d.frameCount j)),
    (.text "final_position", .list [.int d.position.1, .int d.position.2])]

/-- What has been done once everything is written. -/
def rendered (j : Job) (d : Drawing) : Rendered where
  output := j.output.val
  steps := d.steps
  frames := d.frameCount j
  position := d.position
  summary := j.summary

/-- The notes of a program that came to its end. -/
def endNotes (j : Job) (d : Drawing) : List Note :=
  .executed d.steps d.position ::
    (if j.animated && d.sampler.frames.isEmpty then [.noFrames j.interval.val] else [])

/-- The note of a written image. -/
def imageNote (j : Job) (d : Drawing) : Note :=
  if j.animated then .savedAnimation d.frames.length j.output.val
  else .savedImage d.machine.canvas.width d.machine.canvas.height j.output.val

/-- Write what a job asks for of a finished drawing. -/
def save (j : Job) (d : Drawing) (s : Store) : Except RenderFault Unit × Store × List Note :=
  match (d.saveImage j).run s with
  | (.error fault, s) => (.error (.image fault), s, [])
  | (.ok (), s) =>
    match j.summary with
    | none => (.ok (), s, [d.imageNote j])
    | some path =>
      match (Yaml.saveFile path (d.summary j)).run s with
      | (.error fault, s) => (.error (.summary fault), s, [d.imageNote j])
      | (.ok (), s) => (.ok (), s, [d.imageNote j, .savedSummary path])

end Drawing

/-- Run the program of a job and write what the job asks for. -/
def render (j : Job) (s : Store) : Except RenderFault Rendered × Store × List Note :=
  let d := Drawing.ofJob j
  match d.halt with
  | .endOfCommands _ =>
    let (result, s, notes) := d.save j s
    (result.map fun () => d.rendered j, s, .started j :: d.notes ++ d.endNotes j ++ notes)
  | halt => (.error (.program halt), s, .started j :: d.notes)

end LoopPainter
