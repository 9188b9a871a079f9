import LoopPainter.Journal.Handler

/-!
# The journal

The journal is what logging depends on: the handlers, the levels of sources, and the fields
that are shown on every line.  The names of sources are parts joined by dots; a source
without a level of its own has that of the source above it, and above all of them stands the
root, whose level is always set.

A record whose level is below that of its source is dropped.  Where there is no handler at
all, records that matter at least as much as a warning go to the error stream as bare
messages.
-/

namespace LoopPainter

/-- What logging depends on. -/
structure Journal where
  /-- The handlers in the order in which they were added. -/
  handlers : List Journal.Handler := []
  /-- The numbers of the handlers that were added by setting the journal up. -/
  installed : List Nat := []
  /-- The number of the next handler. -/
  next : Nat := 0
  rootLevel : Journal.Level := Journal.Level.warning
  /-- The levels of sources that have one of their own. -/
  levels : List (String × Journal.Level) := []
  fields : Journal.Fields := []
  /-- Warnings of libraries are logged. -/
  capturing : Bool := false
  /-- A warning has been logged, which gives its source a handler that writes nothing. -/
  captured : Bool := false
  /-- Crashes are logged. -/
  hooked : Bool := false

namespace Journal

/-! ## Sources -/

/-- The name of the root. -/
def isRoot (source : String) : Bool :=
  source == "" || source == "root"

/-- The level that a source has of its own. -/
def ownLevel (j : Journal) (source : String) : Level :=
  if isRoot source then j.rootLevel else (j.levels.lookup source).getD Level.notSet

/-- Give a source a level of its own. -/
def setLevel (source : String) (level : Level) (j : Journal) : Journal :=
  if isRoot source then { j with rootLevel := level }
  else { j with levels := (source, level) :: j.levels.filter fun e => e.1 != source }

/-- The names of the sources above one, nearest first; the name is given backwards.  Of two
dots in a row only the last one parts names. -/
def sourcesAbove : List Char → List String
  | '.' :: c :: rest => String.ofList (c :: rest).reverse :: sourcesAbove rest
  | _ :: rest => sourcesAbove rest
  | [] => []

/-- A source and those above it, nearest first, without the root. -/
def lineage (source : String) : List String :=
  if isRoot source then [] else source :: sourcesAbove source.toList.reverse

/-- The level that counts for a source. -/
def levelOf (j : Journal) (source : String) : Level :=
  (((lineage source).map j.ownLevel).find? (· ≠ Level.notSet)).getD j.rootLevel

/-- Whether records of a source and level are written. -/
def accepts (j : Journal) (source : String) (level : Level) : Bool :=
  Level.notSet < level && j.levelOf source ≤ level

/-! ## Handlers -/

/-- Add a handler. -/
def addHandler (form : Form) (sink : Sink) (j : Journal) : Journal :=
  { j with handlers := j.handlers ++ [⟨j.next, form, sink⟩], next := j.next + 1 }

/-- The source of the warnings of libraries. -/
def warningSource : String := "py.warnings"

/-- Let every handler write the line that it makes of a record. -/
def writeAll (line : Form → Except LineFault String) (s : Store) :
    List Handler → List Handler × Store × String
  | [] => ([], s, "")
  | h :: rest =>
    let (h, s, text) :=
      match line h.form with
      | .ok l => h.write l s
      | .error _ => (h, s, "")
    let (rest, s, more) := writeAll line s rest
    (h :: rest, s, text ++ more)

/-- What is written of a record where there is no handler. -/
def lastResort (j : Journal) (r : Record) : String :=
  if r.level < Level.warning || (j.captured && (lineage r.source).contains warningSource) then ""
  else
    match bareLine r with
    | .ok line => line ++ "\n"
    | .error _ => ""

/-- Log a record; the text is what goes to the error stream. -/
def log (process : Nat) (r : Record) (j : Journal) (s : Store) : Journal × Store × String :=
  if !j.accepts r.source r.level then (j, s, "")
  else if j.handlers.isEmpty then (j, s, j.lastResort r)
  else
    let (handlers, s, text) := writeAll (fun f => f.line process j.fields r) s j.handlers
    ({ j with handlers := handlers }, s, text)

/-! ## Fields -/

/-- Show more fields. -/
def push (fields : Fields) (j : Journal) : Journal :=
  { j with fields := Fields.push fields j.fields }

/-- Show some fields no longer, or none at all. -/
def pop (names : Option (List String)) (j : Journal) : Journal :=
  match names with
  | none => { j with fields := [] }
  | some names => { j with fields := Fields.pop names j.fields }

end Journal

end LoopPainter
