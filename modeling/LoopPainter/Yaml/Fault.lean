import LoopPainter.Text.Quoted

/-!
# Faults of a YAML text

Almost every fault of a text is one and the same to its reader: the text is malformed.
The exceptions are scalars whose form is right but whose value does not exist, such as
the thirtieth of February, and scalars that a tag declares to be of a kind they are
not.  A text may also be nested too deeply to be read.
-/

namespace LoopPainter.Yaml

/-- A part of a date or time that can be out of range. -/
inductive DatePart where
  | year (value : Nat)
  | month
  | day
  | hour
  | minute
  | second
  deriving DecidableEq, Repr

/-- Why a text has no value. -/
inductive Fault where
  | malformed
  | codePointOutOfRange
  | codePointTooLarge
  | badInteger (base : Nat) (text : String)
  | tooManyDigits (count : Nat)
  | badFloat (text : String)
  | emptyNumber
  | badTruthValue (text : String)
  | badDate (part : DatePart)
  | badOffset (days seconds : Int)
  | notATimestamp
  | notAScalar
  | weightTooLarge
  | tooDeep
  deriving DecidableEq, Repr

/-- The complaint about a part of a date or time. -/
def DatePart.message : DatePart → String
  | .year y => "year " ++ Text.natString y ++ " is out of range"
  | .month => "month must be in 1..12"
  | .day => "day is out of range for month"
  | .hour => "hour must be in 0..23"
  | .minute => "minute must be in 0..59"
  | .second => "second must be in 0..59"

/-- A span of time as a call, without the parts that are zero. -/
def spanLiteral (days seconds : Int) : String :=
  let parts :=
    (if days = 0 then [] else ["days=" ++ Text.intString days]) ++
      (if seconds = 0 then [] else ["seconds=" ++ Text.intString seconds])
  "datetime.timedelta(" ++ (if parts.isEmpty then "0" else ", ".intercalate parts) ++ ")"

/-- How many characters of a text that is no whole number a complaint shows, the opening
quote included. -/
def shownLength : Nat := 200

/-- The text of a complaint. -/
def Fault.message : Fault → String
  | .malformed => "malformed YAML"
  | .codePointOutOfRange => "chr() arg not in range(0x110000)"
  | .codePointTooLarge => "Python int too large to convert to C int"
  | .badInteger base s =>
    "invalid literal for int() with base " ++ Text.natString base ++ ": " ++
      String.ofList ((Text.quoted s.toList).take shownLength)
  | .tooManyDigits n =>
    "Exceeds the limit (4300 digits) for integer string conversion: value has " ++
      Text.natString n ++ " digits; use sys.set_int_max_str_digits() to increase the limit"
  | .badFloat s => "could not convert string to float: " ++ Text.quotedString s
  | .emptyNumber => "string index out of range"
  | .badTruthValue s => Text.quotedString s
  | .badDate part => part.message
  | .badOffset days seconds =>
    "offset must be a timedelta strictly between -timedelta(hours=24) and " ++
      "timedelta(hours=24), not " ++ spanLiteral days seconds
  | .notATimestamp => "'NoneType' object has no attribute 'groupdict'"
  | .notAScalar => "expected string or bytes-like object, got 'list'"
  | .weightTooLarge => "int too large to convert to float"
  | .tooDeep => "maximum recursion depth exceeded"

end LoopPainter.Yaml
