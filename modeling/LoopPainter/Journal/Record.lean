import LoopPainter.Journal.Fields
import LoopPainter.Journal.Level
import LoopPainter.Json.Printer
import LoopPainter.Template.Fill

/-!
# Records and their lines

A record is one message of a source at a time.  It is written as a line for people, with the
parts between bars, or as a JSON object; both show the context fields.  The members of the
JSON object are first those of the record and then the fields, and a field of the same name
takes the place of a member.

A record may also tell of a crash, which is shown on lines of its own or as a last member.
-/

namespace LoopPainter.Journal

/-- An unforeseen end of the program. -/
structure Crash where
  /-- The kind of error. -/
  kind : String
  text : String
  /-- The text is a key that was looked for, and is shown between quotes. -/
  quoted : Bool := false
  /-- The user broke the program off. -/
  interrupt : Bool := false
  deriving DecidableEq, Repr

/-- The text of a crash. -/
def Crash.display (c : Crash) : String :=
  let text := if c.quoted then Text.quotedString c.text else c.text
  if text == "" then c.kind else c.kind ++ ": " ++ text

/-- A message of a source. -/
structure Record where
  /-- The time in seconds since the start of 1970. -/
  created : Binary64
  level : Level
  /-- The name of the level, as lines show it. -/
  levelName : String := level.name
  source : String
  template : String
  args : List Datum := []
  crash : Option Crash := none

/-- The message of a record. -/
def Record.message (r : Record) : Except Template.Fault String :=
  Template.message r.template r.args

/-! ## Lines -/

/-- How records are written. -/
structure Form where
  json : Bool := false
  /-- Levels are written in color. -/
  color : Bool := false
  /-- Times say that they are universal time. -/
  universal : Bool := true
  deriving DecidableEq, Repr

/-- There is no form of a name. -/
structure UnknownForm where
  name : String
  deriving DecidableEq, Repr

/-- The text of the complaint. -/
def UnknownForm.message (fault : UnknownForm) : String :=
  "Unknown format mode: " ++ fault.name ++ ". Use 'human' or 'json'."

/-- The name of the zone in which times are universal. -/
def universalZone : String := "UTC"

/-- The form with a name; color is used on a terminal only. -/
def Form.ofName (name : String) (color terminal : Bool) (zone : String) :
    Except UnknownForm Form :=
  if name = "human" ∨ name = "json" then
    .ok ⟨name = "json", color && terminal, zone = universalZone⟩
  else .error ⟨name⟩

/-- Why a record was not written. -/
inductive LineFault where
  | time (fault : Moment.Fault)
  | message (fault : Template.Fault)
  deriving DecidableEq, Repr

/-- The sequence that sets the color of the level with a name, if it has one. -/
def colorStart (name : String) : String :=
  if name = "DEBUG" then "\x1b[36m"
  else if name = "INFO" then "\x1b[32m"
  else if name = "WARNING" then "\x1b[33m"
  else if name = "ERROR" then "\x1b[31m"
  else if name = "CRITICAL" then "\x1b[35m"
  else ""

/-- The sequence that ends a color. -/
def colorEnd : String := "\x1b[0m"

/-- The number of characters that the name of a level is filled up to. -/
def levelWidth : Nat := 8

/-- The name of a level in a column of its own. -/
def levelText (color : Bool) (name : String) : String :=
  let padded := name ++ String.ofList (List.replicate (levelWidth - name.length) ' ')
  if color then colorStart name ++ padded ++ colorEnd else padded

/-- The fields of a line for people. -/
def fieldsText (fields : Fields) : String :=
  " ".intercalate (fields.map fun (name, value) => name ++ "=" ++ value.displayString)

/-- The line for people. -/
def humanLine (color : Bool) (m : Moment) (fields : Fields) (r : Record) (message : String) :
    String :=
  String.ofList m.stamp ++ " | " ++ levelText color r.levelName ++ " | " ++
    (if fields.isEmpty then "" else fieldsText fields ++ " | ") ++ message ++
    (match r.crash with
      | none => ""
      | some c => "\n" ++ c.display)

/-- The members of the JSON object. -/
def members (process : Nat) (m : Moment) (fields : Fields) (r : Record) (message : String) :
    Fields :=
  let own : Fields :=
    [("t", .text (String.ofList (m.iso 'T'))), ("lvl", .text r.levelName),
      ("name", .text r.source), ("pid", .int process), ("msg", .text message)]
  let all := Fields.push fields own
  match r.crash with
  | none => all
  | some c => Fields.put "exc" (.text c.display) all

/-- The JSON line. -/
def jsonLine (process : Nat) (m : Moment) (fields : Fields) (r : Record) (message : String) :
    String :=
  Json.printLine
    (.map ((members process m fields r message).map fun (name, value) => (.text name, value)))

/-- The line of a record, without the end of the line. -/
def Form.line (f : Form) (process : Nat) (fields : Fields) (r : Record) :
    Except LineFault String := do
  let m ← (Moment.ofEpoch r.created (if f.universal then some 0 else none)).mapError .time
  let message ← r.message.mapError .message
  return if f.json then jsonLine process m fields r message
    else humanLine f.color m fields r message

/-- The line of a record where nothing was said about lines: the bare message. -/
def bareLine (r : Record) : Except Template.Fault String := do
  let message ← r.message
  match r.crash with
  | none => return message
  | some c => return message ++ (if message.endsWith "\n" then "" else "\n") ++ c.display

end LoopPainter.Journal
