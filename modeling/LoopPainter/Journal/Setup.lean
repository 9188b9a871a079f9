import LoopPainter.Journal

/-!
# Setting the journal up

Setting up replaces the handlers that were set up before and leaves all others alone.  It
may fail halfway: an unknown level changes nothing, but a file that cannot be opened leaves
the old handlers removed, the new level set, and the handlers that were made before it.
-/

namespace LoopPainter.Journal

/-- How a file is to be rotated. -/
inductive RotationPlan where
  | bySize (limit : Int) (backups : Int)
  /-- Every `interval` units of time, of which `period` is the name. -/
  | byTime (period : String) (interval : Int := 1) (backups : Int := 7)
  | unknown (mode : String)
  deriving DecidableEq, Repr

/-- What is said about a rotation; anything may be left out. -/
structure RotationOptions where
  mode : Option String := none
  limit : Option Int := none
  period : Option String := none
  interval : Option Int := none
  backups : Option Int := none
  deriving DecidableEq, Repr

/-- The plan with defaults for what was left out. -/
def RotationOptions.plan (o : RotationOptions) : RotationPlan :=
  match o.mode.getD "size" with
  | "size" => .bySize (o.limit.getD 10000000) (o.backups.getD 3)
  | "time" => .byTime (o.period.getD "D") (o.interval.getD 1) (o.backups.getD 7)
  | mode => .unknown mode

/-- What is asked of a journal. -/
structure Setup where
  level : String := "INFO"
  file : Option String := none
  json : Bool := false
  color : Bool := true
  toConsole : Bool := true
  rotation : Option RotationPlan := none
  zone : String := universalZone
  captureWarnings : Bool := true
  quiet : List String := []
  fields : Fields := []

/-- Why a period of rotation was refused. -/
inductive PeriodFault where
  | noWeekday (period : String)
  | badWeekday (period : String)
  | unknown (period : String)
  deriving DecidableEq, Repr

/-- Why a journal was not set up. -/
inductive SetupFault where
  | unknownLevel (name : String)
  | unknownMode (mode : String)
  | period (fault : PeriodFault)
  | store (fault : Store.Fault)
  deriving DecidableEq, Repr

/-- The text of a complaint. -/
def SetupFault.message : SetupFault → String
  | .unknownLevel name => "Unknown log level: " ++ name
  | .unknownMode mode => "Unknown rotation mode: " ++ mode ++ ". Use 'size' or 'time'."
  | .period (.noWeekday p) =>
    "You must specify a day for weekly rollover from 0 to 6 (0 is Monday): " ++ p
  | .period (.badWeekday p) => "Invalid day specified for weekly rollover: " ++ p
  | .period (.unknown p) => "Invalid rollover interval specified: " ++ p
  | .store fault => fault.path

/-! ## Files -/

/-- Check the period of a rotation by time: a unit of time, midnight, or a day of the week. -/
def checkPeriod (period : String) : Except PeriodFault Unit :=
  let p := Text.upperString period
  if ["S", "M", "H", "D", "MIDNIGHT"].contains p then .ok ()
  else
    match p.toList with
    | 'W' :: rest =>
      match rest with
      | [c] => if '0' ≤ c && c ≤ '6' then .ok () else .error (.badWeekday p)
      | _ => .error (.noWeekday p)
    | _ => .error (.unknown p)

/-- An action of setting up. -/
abbrev SetupAction (α : Type) : Type :=
  ExceptT SetupFault (StateM Store) α

/-- Open the file of a handler, with the directories above it. -/
def openFile (file : String) (rotation : Option RotationPlan) : SetupAction Sink := do
  let path := Path.ofString file
  (Store.ensureDirectory path.parent).adapt .store
  if let some (.unknown mode) := rotation then throw (.unknownMode mode)
  let f ← (LogFile.atEnd path.normalized).adapt .store
  match rotation with
  | some (.bySize limit backups) => return .file (.bySize limit backups) f
  | some (.byTime period _ _) =>
    if let .error fault := checkPeriod period then throw (.period fault)
    return .file .byTime f
  | _ => return .file .never f

/-! ## The steps -/

/-- The journal without the handlers that were set up before. -/
def withoutInstalled (j : Journal) : Journal :=
  { j with handlers := j.handlers.filter fun h => !j.installed.contains h.number, installed := [] }

/-- Add a handler and note it as set up. -/
def install (form : Form) (sink : Sink) (j : Journal) : Journal :=
  { j.addHandler form sink with installed := j.installed ++ [j.next] }

/-- The form of the lines on the error stream. -/
def Setup.consoleForm (w : Setup) (terminal : Bool) : Form :=
  ⟨w.json, w.color && terminal, w.zone = universalZone⟩

/-- The form of the lines in a file. -/
def Setup.fileForm (w : Setup) : Form :=
  ⟨w.json, false, w.zone = universalZone⟩

/-- Log the warnings of libraries. -/
def capture (j : Journal) : Journal :=
  setLevel warningSource Level.warning { j with capturing := true }

/-- The part of setting up that comes after the handlers. -/
def finish (w : Setup) (j : Journal) : Journal :=
  let j := j.push w.fields
  let j := w.quiet.foldl (fun j source => setLevel source Level.warning j) j
  if w.captureWarnings then capture j else j

/-- Set a journal up. -/
def setUp (w : Setup) (terminal : Bool) (j : Journal) (s : Store) :
    Except SetupFault Unit × Journal × Store :=
  match Level.ofName? w.level with
  | none => (.error (.unknownLevel w.level), j, s)
  | some level =>
    let j := { j.withoutInstalled with rootLevel := level }
    let j := if w.toConsole then j.install (w.consoleForm terminal) .console else j
    match w.file with
    | none => (.ok (), finish w j, s)
    | some file =>
      if file = "" then (.ok (), finish w j, s)
      else
        match (openFile file w.rotation).run s with
        | (.error fault, s) => (.error fault, j, s)
        | (.ok sink, s) => (.ok (), finish w (j.install w.fileForm sink), s)

/-- The handlers that were set up. -/
def installedHandlers (j : Journal) : List Handler :=
  j.handlers.filter fun h => j.installed.contains h.number

end LoopPainter.Journal
