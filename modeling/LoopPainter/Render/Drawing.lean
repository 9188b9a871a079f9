import LoopPainter.Machine.Run
import LoopPainter.Render.Note
import LoopPainter.Sampler

/-!
# Drawings

A drawing is what becomes of the program of a job: the machine at its end, and the frames
that were sampled at the pauses of an animation.  Nothing is written here.
-/

namespace LoopPainter

/-- A program that was run. -/
structure Drawing where
  steps : Nat
  halt : Machine.Halt
  machine : Machine
  sampler : Sampler
  /-- The notes of the run, oldest first. -/
  notes : List Note

namespace Drawing

/-- What is kept while a program runs. -/
structure Progress where
  steps : Nat
  sampler : Sampler
  /-- The notes so far, newest first. -/
  notes : List Note

/-- Take a pause into account. -/
def Progress.pause (p : Progress) (c : Canvas) : Progress :=
  match p.sampler.onPause c with
  | (true, sampler) => ⟨p.steps, sampler, .captured sampler.frames.size :: p.notes⟩
  | (false, sampler) => ⟨p.steps, sampler, p.notes⟩

/-- Take a step into account; the canvas is sampled at the pauses of an animation. -/
def Progress.note (animated : Bool) (p : Progress) (event : Machine.Event) (m : Machine) :
    Progress :=
  let p := { p with steps := p.steps + 1 }
  match event with
  | .quiet => p
  | .pause => if animated then p.pause m.canvas else p
  | .jump close start => { p with notes := .jumped close start :: p.notes }

/-- The sampler of a job, without frames. -/
def startSampler (j : Job) : Sampler where
  interval := j.interval.val
  quantum := Sampler.pauseQuantum

/-- The machine of a job at the start of the program. -/
def startMachine (j : Job) : Machine :=
  Machine.start j.commands.toList.toArray j.canvas

/-- Run the program of a job. -/
def ofJob (j : Job) : Drawing :=
  match Machine.follow (Progress.note j.animated) ⟨0, startSampler j, []⟩ (startMachine j) with
  | (p, halt, machine) => ⟨p.steps, halt, machine, p.sampler, p.notes.reverse⟩

/-- Where the painter stopped. -/
def position (d : Drawing) : Int × Int :=
  (d.machine.painter.x, d.machine.painter.y)

/-- The frames of an animation: those sampled or, if there are none, the final canvas. -/
def frames (d : Drawing) : List (Raster Rgb) :=
  if d.sampler.frames.isEmpty then [d.machine.canvas.toRgb] else d.sampler.frames.toList

end Drawing

end LoopPainter
