import LoopPainter.Text.Digits
import LoopPainter.Text.Quoted

/-!
# Arguments of the command line

The flags, which are told by their names, in the order in which the help lists them; and
the two arguments that are told by their position.
-/

namespace LoopPainter.CommandLine

/-- What an argument is about. -/
inductive Parameter where
  | output
  | command
  | help
  | width
  | height
  | background
  | interval
  | job
  | summary
  | logLevel
  | logFile
  | logJson
  deriving DecidableEq, Repr

/-- What a flag takes. -/
inductive Kind where
  /-- Nothing: the flag shows the help. -/
  | help
  /-- Nothing: the flag is a switch. -/
  | switch
  | text
  | whole
  | choice (words : List String)
  deriving DecidableEq, Repr

/-- An argument that is told by its name. -/
structure Flag where
  parameter : Parameter
  /-- The names, short ones first. -/
  names : List String
  kind : Kind
  /-- What the value is called in the help. -/
  placeholder : String := ""
  help : String
  deriving DecidableEq, Repr

/-- The flag takes a value. -/
def Flag.takesValue (f : Flag) : Bool :=
  match f.kind with
  | .help | .switch => false
  | _ => true

/-- All names of a flag. -/
def Flag.title (f : Flag) : String :=
  "/".intercalate f.names

/-- The levels that can be asked for. -/
def levels : List String :=
  ["DEBUG", "INFO", "WARNING", "ERROR"]

/-- The flags. -/
def flags : List Flag :=
  [{ parameter := .help, names := ["-h", "--help"], kind := .help,
     help := "show this help message and exit" },
   { parameter := .width, names := ["--width"], kind := .whole, placeholder := "WIDTH",
     help := "Canvas width in pixels (default 256)" },
   { parameter := .height, names := ["--height"], kind := .whole, placeholder := "HEIGHT",
     help := "Canvas height in pixels (default 256)" },
   { parameter := .background, names := ["-b", "--background"], kind := .text,
     placeholder := "BACKGROUND", help := "Background colour name (default black)" },
   { parameter := .interval, names := ["--interval"], kind := .whole, placeholder := "INTERVAL",
     help := "Virtual milliseconds between animation frames (default 100)" },
   { parameter := .job, names := ["--job"], kind := .text, placeholder := "JOB",
     help := "YAML render job; explicit arguments override its values. Relative output and " ++
       "summary paths in the job resolve against the current directory, not the job file's " ++
       "directory" },
   { parameter := .summary, names := ["--summary"], kind := .text, placeholder := "SUMMARY",
     help := "Write a YAML run summary to this path" },
   { parameter := .logLevel, names := ["--log-level"], kind := .choice levels,
     placeholder := "\x7b" ++ ",".intercalate levels ++ "\x7d", help := "Logging verbosity" },
   { parameter := .logFile, names := ["--log-file"], kind := .text, placeholder := "LOG_FILE",
     help := "Also log to this file" },
   { parameter := .logJson, names := ["--log-json"], kind := .switch,
     help := "Emit JSON log lines" }]

/-- An argument that is told by its position, and may be left out. -/
structure Positional where
  parameter : Parameter
  name : String
  help : String
  deriving DecidableEq, Repr

/-- The positional arguments. -/
def positionals : List Positional :=
  [{ parameter := .output, name := "output",
     help := "Output path; .gif writes an animation, anything else a still image" },
   { parameter := .command, name := "command",
     help := "Program text, e.g. '[[[[CFRS]]]]'" }]

/-- Every name with its flag, in the order of the flags. -/
def namedFlags : List (String × Flag) :=
  flags.flatMap fun f => f.names.map fun n => (n, f)

/-- The flag with exactly this name. -/
def named? (name : String) : Option Flag :=
  namedFlags.lookup name

end LoopPainter.CommandLine
