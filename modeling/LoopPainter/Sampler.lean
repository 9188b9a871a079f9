import LoopPainter.Raster

/-!
# Sampling frames

Every pause of a program lets a virtual clock run on by a fixed quantum.  When the
clock has reached the frame interval, the canvas is captured and the interval is
taken off the clock; what is left over counts toward the next frame.  One pause
captures at most one frame, even if the quantum is longer than the interval.
-/

namespace LoopPainter

/-- Collects a frame for every interval of pause time. -/
structure Sampler where
  interval : Int
  quantum : Int
  /-- The pause time since the last frame. -/
  elapsed : Int := 0
  frames : Array (Raster Rgb) := #[]

namespace Sampler

/-- The frame interval was not positive. -/
structure BadInterval where
  interval : Int
  deriving DecidableEq, Repr

/-- The text of the complaint. -/
def BadInterval.message (fault : BadInterval) : String :=
  "Frame interval must be positive, got " ++ Text.intString fault.interval ++ " ms"

/-- How long one pause lasts, in milliseconds. -/
def pauseQuantum : Int := 20

/-- A sampler without frames. -/
def make (interval : Int) (quantum : Int := pauseQuantum) : Except BadInterval Sampler :=
  if interval ≤ 0 then .error ⟨interval⟩
  else .ok { interval := interval, quantum := quantum }

/-- Register one pause; the answer says whether the canvas was captured. -/
def onPause (s : Sampler) (c : Canvas) : Bool × Sampler :=
  let elapsed := s.elapsed + s.quantum
  if elapsed < s.interval then (false, { s with elapsed := elapsed })
  else (true, { s with elapsed := elapsed - s.interval, frames := s.frames.push c.toRgb })

/-- The frame at a position; negative positions count from the end. -/
def frame? (s : Sampler) (i : Int) : Option (Raster Rgb) :=
  let place := if i < 0 then i + s.frames.size else i
  if 0 ≤ place then s.frames[place.toNat]? else none

end Sampler

end LoopPainter
