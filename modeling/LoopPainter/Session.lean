import LoopPainter.CommandLine.Help
import LoopPainter.CommandLine.Reader
import LoopPainter.Job.File
import LoopPainter.Journal.Incident
import LoopPainter.Journal.Setup
import LoopPainter.Render

/-!
# Sessions

A session is one run of the program: it reads the command line, sets the journal up, puts
the job together, and renders it.  The files, the journal and the two output streams are
its state, so a session is a function.

The arguments of the command line go before the values of the job file.  A job that is
invalid ends the session with code 2, a drawing that fails with code 1.  Some failures are
not foreseen and break out of the session: they are told by `Escape`.
-/

namespace LoopPainter

/-- The state of a session. -/
structure Session where
  store : Store := {}
  journal : Journal := {}
  /-- The text on the output stream. -/
  output : String := ""
  /-- The text on the error stream. -/
  errors : String := ""
  clock : Journal.Clock
  /-- The error stream is a terminal. -/
  terminal : Bool := false
  /-- The texts of job files that there is room to read. -/
  fits : String → Bool := fun _ => true

/-- A failure that breaks out of a session. -/
inductive Escape where
  | setup (fault : Journal.SetupFault)
  | jobFile (fault : Yaml.FileFault)
  | unnamedKey
  | render (fault : RenderFault)
  deriving DecidableEq, Repr

/-- The part of the session that a failure comes from. -/
def Escape.kind : Escape → String
  | .setup _ => "log"
  | .jobFile _ | .unnamedKey => "job"
  | .render _ => "render"

/-- The text of a complaint. -/
def Escape.message : Escape → String
  | .setup fault => fault.message
  | .jobFile fault => fault.message
  | .unnamedKey => Job.Fault.unnamedKey.message
  | .render fault => fault.message

/-- A failure as a crash of the program. -/
def Escape.crash (e : Escape) : Journal.Crash where
  kind := e.kind
  text := e.message

/-- How a session ends. -/
inductive Ending where
  /-- The session ran to its end. -/
  | returned (code : Nat)
  /-- The command line asked for help, or was refused. -/
  | stopped (code : Nat)
  | escaped (failure : Escape)
  deriving DecidableEq, Repr

namespace Session

/-- The code of success. -/
def success : Nat := 0

/-- The code of a drawing that failed. -/
def failed : Nat := 1

/-- The code of a job or a command line that is invalid. -/
def invalid : Nat := 2

/-! ## Logging -/

/-- Log a message. -/
def log (level : Journal.Level) (source message : String) (s : Session) : Session :=
  let r : Journal.Record :=
    { created := s.clock.now, level := level, source := source, template := message }
  let (journal, store, text) := Journal.log s.clock.process r s.journal s.store
  { s with journal := journal, store := store, errors := s.errors ++ text }

/-- The source of the session's own messages. -/
def source : String := "cfrs.render"

/-- The level of a note. -/
def levelOf : Severity → Journal.Level
  | .debug => Journal.Level.debug
  | .info => Journal.Level.info
  | .warning => Journal.Level.warning

/-- Log the notes of a render, as far as they can be put into words. -/
def logNotes (notes : List Note) (s : Session) : Session :=
  (notes.filter fun n => !n.hasLongNumber).foldl
    (fun s n => s.log (levelOf n.severity) n.source n.message) s

/-- Report a crash. -/
def crash (c : Journal.Crash) (s : Session) : Session :=
  let (journal, store, text) := Journal.report s.clock c s.journal s.store
  { s with journal := journal, store := store, errors := s.errors ++ text }

/-! ## Setting up -/

/-- The text of an argument; an argument without text counts as not given. -/
def textOf? : Option Datum → Option String
  | some (.text t) => if t = "" then none else some t
  | _ => none

/-- The fields that are shown from the start. -/
def startFields : Journal.Fields := [("app", .text "cfrs")]

/-- What is asked of the journal. -/
def journalSetup (a : CommandLine.Arguments) : Journal.Setup where
  level := (textOf? (a.get? .logLevel)).getD "INFO"
  file := textOf? (a.get? .logFile)
  json := (a.get? .logJson).isSome
  quiet := ["PIL"]
  fields := startFields

/-- Set the journal up. -/
def setUp (a : CommandLine.Arguments) (s : Session) : Except Escape Unit × Session :=
  let (result, journal, store) := Journal.setUp (journalSetup a) s.terminal s.journal s.store
  let s := { s with journal := journal, store := store }
  match result with
  | .error fault => (.error (.setup fault), s)
  | .ok () => (.ok (), { s with journal := { s.journal with hooked := true } })

/-! ## The job -/

/-- The arguments that are fields of the job. -/
def jobArguments : List (CommandLine.Parameter × Job.Field) :=
  [(.output, .output), (.command, .commands), (.width, .width), (.height, .height),
    (.background, .background), (.interval, .interval), (.summary, .summary)]

/-- Put the arguments that were given in place of the values of a mapping. -/
def override (a : CommandLine.Arguments) (pairs : List (Datum × Datum)) : List (Datum × Datum) :=
  jobArguments.foldl (fun pairs (parameter, field) =>
    match a.get? parameter with
    | some d => Datum.putPair (.text field.key) d pairs
    | none => pairs) pairs

/-- The job of a command line and the files that it names. -/
def jobOf (a : CommandLine.Arguments) (store : Store) (fits : String → Bool := fun _ => true) :
    Except Job.LoadFault Job := do
  let pairs ←
    match textOf? (a.get? .job) with
    | some file => (Job.loadPairs store (Path.ofString file) fits).mapError .file
    | none => pure []
  (Job.ofPairs (override a pairs)).mapError .job

/-- The message of a fault that makes a job invalid; other faults break out. -/
def complaint : Job.LoadFault → Except Escape String
  | .file (.yaml fault) => .error (.jobFile fault)
  | .file fault => .ok fault.message
  | .job .unnamedKey => .error .unnamedKey
  | .job fault => .ok fault.message

/-! ## Rendering -/

/-- The message of a fault that makes a drawing fail; other faults break out. -/
def failure (fault : RenderFault) : Except Escape String :=
  match fault with
  | .program halt => .ok ("Program failed (" ++ halt.kind ++ "): " ++ halt.message)
  | .image (.save (.imageNotWritten path cause)) =>
    .ok ("Export failed: " ++ (SaveFault.imageNotWritten path cause).message)
  | .summary (.bytesNotWritten path cause) =>
    .ok ("Export failed: " ++ (SaveFault.bytesNotWritten path cause).message)
  | fault => .error (.render fault)

/-- The line that reports success. -/
def report (r : Rendered) : String :=
  "Wrote " ++ r.output.toString ++ " (" ++ Text.natString r.steps ++ " steps, " ++
    Text.natString r.frames ++ " frames)\n"

/-- The name of the field that shows which file is written. -/
def outputField : String := "output"

/-- Render a job, with its output shown on every line of the log meanwhile. -/
def renderJob (j : Job) (s : Session) : Ending × Session :=
  let s := { s with journal := s.journal.push [(outputField, .text j.output.val.name)] }
  let (result, store, notes) := render j s.store
  let s := { s with store := store }.logNotes notes
  let leave (s : Session) : Session := { s with journal := s.journal.pop (some [outputField]) }
  match result with
  | .ok r =>
    let s := leave s
    (.returned success, { s with output := s.output ++ report r })
  | .error fault =>
    match failure fault with
    | .ok message => (.returned failed, leave (s.log Journal.Level.error source message))
    | .error escape => (.escaped escape, leave s)

/-! ## The whole session -/

/-- Run a session on arguments that were read. -/
def runWith (a : CommandLine.Arguments) (s : Session) : Ending × Session :=
  match s.setUp a with
  | (.error escape, s) => (.escaped escape, s)
  | (.ok (), s) =>
    match jobOf a s.store s.fits with
    | .ok job => renderJob job s
    | .error fault =>
      match complaint fault with
      | .ok message => (.returned invalid, s.log Journal.Level.error source message)
      | .error escape => (.escaped escape, s)

/-- Run a session. -/
def run (words : List String) (s : Session) : Ending × Session :=
  match CommandLine.read words with
  | .ok arguments => runWith arguments s
  | .error .help => (.stopped success, { s with output := s.output ++ CommandLine.helpText })
  | .error (.fault fault) =>
    (.stopped invalid, { s with
      errors := s.errors ++ CommandLine.usage ++ CommandLine.program ++ ": error: " ++
        fault.message ++ "\n" })

end Session

end LoopPainter
