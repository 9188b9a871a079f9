import LoopPainter.Journal.Record
import LoopPainter.Store

/-!
# Handlers

A handler writes the lines of records to the error stream or to a file.

A handler of a file writes to the file that it opened.  Should another file have taken the
place of that one, its lines are lost; so a handler keeps the content that it left its file
with, and adds to a file only where it finds that content.  A handler whose file could not
be opened loses a line, and tries again with the next one.

A rotating handler starts a new file before the old one grows too large, and keeps some old
files under numbers: the name followed by `.1` is the newest of them.
-/

namespace LoopPainter.Journal

/-- When a handler starts a new file. -/
inductive Rotation where
  | never
  /-- Before a file of at least `limit` bytes, where `limit` is positive. -/
  | bySize (limit : Int) (backups : Int)
  /-- At set times.  No run is taken to last until the first of them. -/
  | byTime
  deriving DecidableEq, Repr

/-- A file that lines are added to. -/
structure LogFile where
  path : Path
  /-- What the file holds if nobody else has changed it, while it is open. -/
  content : Option ByteArray

instance : DecidableEq LogFile := fun a b =>
  decidable_of_iff
    (a.path = b.path ∧ a.content.map Content.bytes = b.content.map Content.bytes)
    (by cases a; cases b; simp [Option.map_inj_right])

/-- Where a handler writes to. -/
inductive Sink where
  | console
  | file (rotation : Rotation) (file : LogFile)
  deriving DecidableEq

/-- A writer of lines; no two handlers have the same number. -/
structure Handler where
  number : Nat
  form : Form
  sink : Sink
  deriving DecidableEq

/-! ## Files -/

namespace LogFile

/-- Open the file at a path at its end, making it if it is missing. -/
def atEnd (path : Path) : Store.Action LogFile := do
  match ← Store.reach path with
  | (_, some (.file (.bytes data))) => return ⟨path, some data⟩
  | (_, some (.file (.image _))) => return ⟨path, some ByteArray.empty⟩
  | _ =>
    Store.writeFile path (.bytes ByteArray.empty)
    return ⟨path, some ByteArray.empty⟩

/-- Open the file again if it is closed. -/
def reopened (f : LogFile) : Store.Action LogFile :=
  if f.content.isSome then pure f else atEnd f.path

/-- The closed file. -/
def closed (f : LogFile) : LogFile :=
  ⟨f.path, none⟩

/-- Add to the end of the file, unless it is closed. -/
def append (f : LogFile) (data : ByteArray) (s : Store) : LogFile × Store :=
  match f.content with
  | none => (f, s)
  | some before =>
    let f : LogFile := ⟨f.path, some (before ++ data)⟩
    match s.lookup f.path with
    | .ok (place, some (.file found)) =>
      if found = .bytes before then (f, s.insert place (.file (.bytes (before ++ data))))
      else (f, s)
    | _ => (f, s)

/-! ### Old files -/

/-- The path of a numbered old file. -/
def numbered (path : Path) (n : Nat) : Path :=
  { path with parts := path.parts.dropLast ++ [path.name ++ "." ++ Text.natString n] }

/-- Whether something is at a path that can be reached. -/
def isThere (path : Path) : Store.Action Bool := do
  match (← get).lookup path with
  | .ok (_, some _) => return true
  | _ => return false

/-- Move what is at a path to another one, in place of a file that is there. -/
def renumber (source target : Path) : Store.Action Unit := do
  if ← isThere target then Store.removeFile target
  Store.moveEntry source target

/-- Give every old file the next number, from the given one down to the first. -/
def shift (path : Path) : Nat → Store.Action Unit
  | 0 => pure ()
  | n + 1 => do
    if ← isThere (numbered path (n + 1)) then
      renumber (numbered path (n + 1)) (numbered path (n + 2))
    shift path n

/-- Make way for the newest of the old files, and make it of the file, if that is there. -/
def putAway (path : Path) : Store.Action Unit := do
  let newest := numbered path 1
  if ← isThere newest then Store.removeFile newest
  if ← isThere path then Store.moveEntry path newest

/-- Put the file away as the newest of the old files and open a new one. -/
def rotate (f : LogFile) (backups : Int) : Store.Action LogFile := do
  if 0 < backups then
    shift f.path (backups.toNat - 1)
    putAway f.path
  atEnd f.path

end LogFile

/-! ## Writing -/

namespace Handler

/-- Whether a file has to be put away before a line is added to it. -/
def isFull (limit : Int) (f : LogFile) (line : String) : Bool :=
  0 < limit && limit ≤ (f.content.elim 0 fun data => (data.size : Int)) + line.length

/-- The open file that a line is added to. -/
def target (rotation : Rotation) (f : LogFile) (line : String) : Store.Action LogFile := do
  let f ← f.reopened
  match rotation with
  | .bySize limit backups => if isFull limit f line then f.rotate backups else return f
  | _ => return f

/-- Write a line; the text is what goes to the error stream. -/
def write (h : Handler) (line : String) (s : Store) : Handler × Store × String :=
  let line := line ++ "\n"
  match h.sink with
  | .console => (h, s, line)
  | .file rotation f =>
    let (opened, s) := (target rotation f line).run s
    let (f, s) := (opened.toOption.getD f.closed).append line.toUTF8 s
    ({ h with sink := .file rotation f }, s, "")

end Handler

end LoopPainter.Journal
