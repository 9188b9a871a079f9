import LoopPainter.Painter

/-!
# The loop machine

A program is a row of characters.  Six of them are commands: `C` changes the ink,
`R` turns, `F` steps forward and paints, `S` pauses, and `[` and `]` enclose a
loop; every other character does nothing.

The machine walks the program with a cursor and never looks for the partner of a
bracket.  A `[` pushes the position after it.  The first time a `]` is reached it
pops that position, notes its own as *fired* and jumps back; when it is reached
again it is taken off the fired positions and the cursor moves on.  So every loop
body runs exactly twice, and is ready to run twice again in the next pass of an
enclosing loop.

The cursor may have been placed anywhere.  Positions from the end are negative,
down to minus the length of the program; below that there is no character to
read.
-/

namespace LoopPainter

/-- The state of a run. -/
structure Machine where
  commands : Array Char
  canvas : Canvas
  painter : Painter
  /-- The cursor. -/
  index : Int := 0
  /-- Where the open loops start, innermost first. -/
  starts : List Int := []
  /-- The closing brackets that have jumped back and not been passed since. -/
  fired : List Int := []

namespace Machine

/-- Why a step was not taken. -/
inductive Halt where
  | endOfCommands (index : Int)
  | unmatchedClose (index : Int)
  | noCharacter
  | offCanvas (fault : Canvas.Fault)
  deriving DecidableEq, Repr

/-- The text of a halt. -/
def Halt.message : Halt → String
  | .endOfCommands _ => "End of commands"
  | .unmatchedClose i => "Unmatched ] at index " ++ Text.intString i
  | .noCharacter => "string index out of range"
  | .offCanvas fault => fault.message

/-- The name of the kind of a halt. -/
def Halt.kind : Halt → String
  | .endOfCommands _ => "END_OF_COMMANDS"
  | .unmatchedClose _ => "UNMATCHED_CLOSE_BRACKET"
  | .noCharacter => "NO_CHARACTER"
  | .offCanvas _ => "OFF_CANVAS"

/-- What a step shows to an observer. -/
inductive Event where
  | quiet
  | pause
  | jump (close start : Int)
  deriving DecidableEq, Repr

/-- A machine at the start of a program, with the painter in the middle of the canvas. -/
def start (commands : Array Char) (canvas : Canvas) : Machine where
  commands := commands
  canvas := canvas
  painter := Painter.centeredOn canvas

/-- The cursor is past the last character. -/
def done (m : Machine) : Bool :=
  m.commands.size ≤ m.index

/-- The character under the cursor. -/
def current? (m : Machine) : Option Char :=
  if 0 ≤ m.index then m.commands[m.index.toNat]?
  else if -(m.commands.size : Int) ≤ m.index then
    m.commands[(m.index + m.commands.size).toNat]?
  else none

/-- Move the cursor one character on. -/
def moveOn (m : Machine) : Machine :=
  { m with index := m.index + 1 }

/-- Take one step.  A step that is refused leaves the machine as it was, except that a
painter who was about to paint off the canvas has moved there. -/
def step (m : Machine) : Except Halt Event × Machine :=
  if m.done then (.error (.endOfCommands m.index), m)
  else
    match m.current? with
    | none => (.error .noCharacter, m)
    | some 'C' => (.ok .quiet, { m with painter := m.painter.changeColor, index := m.index + 1 })
    | some 'R' => (.ok .quiet, { m with painter := m.painter.rotate, index := m.index + 1 })
    | some 'F' =>
      let p := m.painter.advance m.canvas.width m.canvas.height
      if h : m.canvas.Inside p.x p.y then
        (.ok .quiet,
          { m with canvas := m.canvas.put p.x p.y h p.ink, painter := p, index := m.index + 1 })
      else (.error (.offCanvas (m.canvas.outside p.x p.y)), { m with painter := p })
    | some 'S' => (.ok .pause, m.moveOn)
    | some '[' => (.ok .quiet, { m with starts := (m.index + 1) :: m.starts, index := m.index + 1 })
    | some ']' =>
      if m.index ∈ m.fired then
        (.ok .quiet, { m with fired := m.fired.erase m.index, index := m.index + 1 })
      else
        match m.starts with
        | [] => (.error (.unmatchedClose m.index), m)
        | s :: rest =>
          (.ok (.jump m.index s), { m with starts := rest, fired := m.index :: m.fired, index := s })
    | some _ => (.ok .quiet, m.moveOn)

/-- The cursor, the loop depth and the painter in words. -/
def display (m : Machine) : String :=
  "CommandExecutor(index=" ++ Text.intString m.index ++ "/" ++ Text.natString m.commands.size ++
    ", depth=" ++ Text.natString m.starts.length ++ ", painter=" ++ m.painter.display ++ ")"

end Machine

end LoopPainter
