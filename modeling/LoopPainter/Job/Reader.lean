import LoopPainter.Job.Issue
import LoopPainter.Text.Blank

/-!
# Reading a job

A job is read from a mapping field by field, and the issues of all fields are reported
together: first those of the fields in their order, then the keys that are no field, in the
order of the mapping.

A whole number may also be given as a truth value, as a floating-point number without a
fraction, or as text.  A text may also be given as bytes, but a path may not.  A color may be
given as itself, and stands among the values by its word (`colorValue`).
-/

namespace LoopPainter.Job

/-! ## Values -/

/-- Text, which may also be given as the bytes of its UTF-8 form. -/
def readText : Datum → Except Cause String
  | .text s => .ok s
  | .bytes b =>
    match String.fromUTF8? ⟨b.toArray⟩ with
    | some s => .ok s
    | none => .error .notUnicode
  | _ => .error .notText

/-- A path, which must be given as text. -/
def readPath : Datum → Except Cause Path
  | .text s => .ok (Path.ofString s)
  | _ => .error .notPath

/-- A path, or none. -/
def readOptionalPath : Datum → Except Cause (Option Path)
  | .null => .ok none
  | d => (readPath d).map some

/-- The value of an ASCII digit. -/
def asciiDigit? (c : Char) : Option Nat :=
  if Text.isDigit c then some (c.toNat - 48) else none

/-- What is left of the digits behind a zero when further zeros and underscores are dropped; of
nothing but those, and before a point, the last one stays. -/
def dropLeading (last : Char) : List Char → List Char
  | [] => [last]
  | c :: rest =>
    if c == '0' || c == '_' then dropLeading c rest
    else if c == '.' then last :: c :: rest
    else c :: rest

/-- A number without the zeros that it starts with.  Behind a minus sign they stay. -/
def dropLeadingZeros (negative : Bool) : List Char → List Char
  | '0' :: rest => if negative then '0' :: rest else dropLeading '0' rest
  | s => s

/-- A whole number written with an optional sign, single underscores between its digits, and
perhaps a point and zeros behind them.  Among the zeros at its start there may be any
underscores, and they do not count for its length. -/
def readWholeText (s : List Char) : Except Cause Int :=
  let (negative, rest) := Text.splitSign (Text.trimBy Text.isSpace s)
  let (whole, places) := (dropLeadingZeros negative rest).span (· != '.')
  if !places.isEmpty && (places.length = 1 || places.tail.any (· != '0')) then .error .unreadable
  else
    match Text.groupedDigits? asciiDigit? whole with
    | none => .error .unreadable
    | some digits =>
      if Text.maxDigits < digits.length then .error .tooLong
      else .ok (Text.signed negative (Text.ofDigitValues digits))

/-- The floating-point numbers from here on are too large, and those from the negative of this
on too small, to be taken for whole numbers. -/
def wholeLimit : Int := 0x8000000000000000

/-- A floating-point number that is whole. -/
def readWholeFloat (x : Binary64) : Except Cause Int :=
  match x with
  | .nan | .inf _ => .error .notFinite
  | x =>
    match x.toInt? with
    | none => .error .fraction
    | some i => if -wholeLimit < i ∧ i < wholeLimit then .ok i else .error .tooLong

/-- A whole number. -/
def readWhole : Datum → Except Cause Int
  | .int i => .ok i
  | .bool b => .ok (if b then 1 else 0)
  | .float x => readWholeFloat x
  | .text s => readWholeText s.toList
  | .bytes b =>
    match readText (.bytes b) with
    | .ok s => readWholeText s.toList
    | .error _ => .error .unreadable
  | _ => .error .notWhole

/-! ## Fields -/

/-- The side of a canvas. -/
def readSide (d : Datum) : Except Cause Side := do
  let i ← readWhole d
  if i < 1 then throw .tooSmall
  else if h : 0 < i.toNat ∧ i.toNat ≤ maxSide then return ⟨i.toNat, h⟩
  else throw .tooLarge

/-- A time between frames. -/
def readInterval (d : Datum) : Except Cause Interval := do
  let i ← readWhole d
  if h : 0 < i.toNat then return ⟨i.toNat, h⟩ else throw .tooSmall

/-- A color; any value is taken for its plain text. -/
def readBackground (d : Datum) : Except Cause Color :=
  if d.hasLongNumber then .error .numberTooLong
  else (Vocabulary.read Color d.displayString).mapError .badColor

/-- The path of an output file. -/
def readOutput (d : Datum) : Except Cause OutputPath := do
  let p ← readPath d
  if h : p.suffix ≠ "" then return ⟨p, h⟩ else throw (.noSuffix p.toString)

/-- The name of the schema. -/
def readSchema (d : Datum) : Except Cause Unit := do
  let s ← readText d
  if s ≠ schemaName then throw (.wrongSchema s)

/-- The value of a field that has to be given. -/
def required {α : Type} (read : Datum → Except Cause α) : Option Datum → Except Cause α
  | none => .error .missing
  | some d => read d

/-- The value of a field that has a default. -/
def optional {α : Type} (fallback : α) (read : Datum → Except Cause α) :
    Option Datum → Except Cause α
  | none => .ok fallback
  | some d => read d

/-! ## Jobs -/

/-- A second key of the schema, which counts if the first is not there. -/
def otherSchemaKey : String := "schema_version"

/-- The key under which a field is looked up. -/
def keyOf (pairs : List (Datum × Datum)) (f : Field) : String :=
  if f = .schema && (Datum.get? f.key pairs).isNone && (Datum.get? otherSchemaKey pairs).isSome
  then otherSchemaKey
  else f.key

/-- The value given for a field. -/
def given? (pairs : List (Datum × Datum)) (f : Field) : Option Datum :=
  Datum.get? (keyOf pairs f) pairs

/-- The issue of a field, if it has one. -/
def issueOf {α : Type} (pairs : List (Datum × Datum)) (f : Field) : Except Cause α → List Issue
  | .ok _ => []
  | .error cause => [⟨keyOf pairs f, cause⟩]

/-- The issues of keys that are no field. -/
def unknownKeys (pairs : List (Datum × Datum)) : List Issue :=
  pairs.filterMap fun
    | (.text k, _) => if (Field.all.map (keyOf pairs)).contains k then none else some ⟨k, .unknownKey⟩
    | _ => none

/-- A key that is text. -/
def isNamed : Datum × Datum → Bool
  | (.text _, _) => true
  | _ => false

/-- The job that a mapping describes. -/
def ofPairs (pairs : List (Datum × Datum)) : Except Fault Job :=
  if pairs.all isNamed then
    let schema := optional () readSchema (given? pairs .schema)
    let width := optional defaultSide readSide (given? pairs .width)
    let height := optional defaultSide readSide (given? pairs .height)
    let background := optional defaultBackground readBackground (given? pairs .background)
    let interval := optional defaultInterval readInterval (given? pairs .interval)
    let output := required readOutput (given? pairs .output)
    let commands := required readText (given? pairs .commands)
    let summary := optional none readOptionalPath (given? pairs .summary)
    let unknown := unknownKeys pairs
    match schema, width, height, background, interval, output, commands, summary, unknown with
    | .ok (), .ok width, .ok height, .ok background, .ok interval, .ok output, .ok commands,
        .ok summary, [] =>
      .ok ⟨width, height, background, interval, output, commands, summary⟩
    | _, _, _, _, _, _, _, _, _ =>
      .error (.invalid none
        (issueOf pairs .schema schema ++ issueOf pairs .width width ++
          issueOf pairs .height height ++ issueOf pairs .background background ++
          issueOf pairs .interval interval ++ issueOf pairs .output output ++
          issueOf pairs .commands commands ++ issueOf pairs .summary summary ++ unknown))
  else .error .unnamedKey

end LoopPainter.Job
