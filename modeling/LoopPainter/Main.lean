import LoopPainter.Encoding
import LoopPainter.Session.Paths
import LoopPainter.Store.Change
import Std.Time.DateTime.Timestamp

/-!
# The program

The program looks at the files that its session is about, runs the session on them, and
then makes the real files look like those of the session.
-/

namespace LoopPainter.Program

/-! ## Files -/

/-- The entry at a real path, if there is one. -/
def readNode (path : String) : IO (Option Node) := do
  match ← (IO.FS.readBinFile path).toBaseIO with
  | .ok data => return some (.file (.bytes data))
  | .error _ =>
    match ← (IO.FS.realPath path).toBaseIO with
    | .ok _ => return some .directory
    | .error _ => return none

/-- Put the entries of some paths, and of all directories on the way, into a store. -/
def look (paths : List Path) (store : Store) : IO Store := do
  let mut store := store
  for place in paths.flatMap Store.places do
    if (store.find? place).isNone then
      if let some node ← readNode place.text then
        store := store.insert place node
  return store

/-- Make a change of the real files.  A file is written beside its place and then moved, so
that nobody ever sees half of it. -/
def carryOut : Store.Change → IO Unit
  | .remove place => IO.FS.removeFile place.text
  | .makeDirectory place => IO.FS.createDir place.text
  | .write place content => do
    let beside := place.text ++ ".part"
    IO.FS.writeBinFile beside content.data
    IO.FS.rename beside place.text

/-! ## The session -/

/-- The number of this process. -/
def processNumber : IO Nat := do
  match ← (IO.FS.readFile "/proc/self/stat").toBaseIO with
  | .ok text => return ((text.takeWhile Char.isDigit).toString.toNat?).getD 0
  | .error _ => return 0

/-- The time and the process. -/
def clock : IO Journal.Clock := do
  let now ← Std.Time.Timestamp.now
  let micros := now.toNanosecondsSinceUnixEpoch.val / 1000
  return ⟨Binary64.ofFraction (micros < 0) micros.natAbs 1000000, ← processNumber⟩

/-- The code of the program, and the session with a failure that broke out of it reported. -/
def conclude (ending : Ending) (s : Session) : UInt32 × Session :=
  match ending with
  | .returned code => (UInt32.ofNat code, s)
  | .stopped code => (UInt32.ofNat code, s)
  | .escaped failure => (UInt32.ofNat Session.failed, s.crash failure.crash)

end LoopPainter.Program

open LoopPainter in
/-- Run the program. -/
def main (words : List String) : IO UInt32 := do
  let store ← Program.look (Session.argumentPaths words) {}
  let store ← Program.look (Session.writtenPaths words store) store
  let errors ← IO.getStderr
  let start : Session :=
    { store := store, clock := ← Program.clock, terminal := ← errors.isTty }
  let (ending, finished) := start.run words
  let (code, finished) := Program.conclude ending finished
  for change in store.changes finished.store do
    Program.carryOut change
  errors.putStr finished.errors
  (← IO.getStdout).putStr finished.output
  return code
