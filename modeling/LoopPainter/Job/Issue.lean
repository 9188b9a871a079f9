import LoopPainter.Job

/-!
# Issues of a job

An issue is a key of a job's mapping and what is wrong with the value under it, or with the
key itself.  Every cause has a kind, which programs can tell causes apart by, and a message.
-/

namespace LoopPainter.Job

/-- What is wrong with a value. -/
inductive Cause where
  | missing
  | unknownKey
  | notText
  | notUnicode
  | notPath
  | notWhole
  | unreadable
  | tooLong
  | fraction
  | notFinite
  | tooSmall
  | tooLarge
  | wrongSchema (given : String)
  | badColor (fault : Vocabulary.Fault)
  | numberTooLong
  | noSuffix (path : String)
  | frozen
  deriving DecidableEq, Repr

/-- The kind of a cause. -/
def Cause.kind : Cause → String
  | .missing => "missing"
  | .unknownKey => "extra_forbidden"
  | .notText => "string_type"
  | .notUnicode => "string_unicode"
  | .notPath => "path_type"
  | .notWhole => "int_type"
  | .unreadable => "int_parsing"
  | .tooLong => "int_parsing_size"
  | .fraction => "int_from_float"
  | .notFinite => "finite_number"
  | .tooSmall => "greater_than_equal"
  | .tooLarge => "less_than_equal"
  | .wrongSchema _ | .badColor _ | .numberTooLong | .noSuffix _ => "value_error"
  | .frozen => "frozen_instance"

/-- The text of a complaint. -/
def Cause.message : Cause → String
  | .missing => "Field required"
  | .unknownKey => "Extra inputs are not permitted"
  | .notText => "Input should be a valid string"
  | .notUnicode =>
    "Input should be a valid string, unable to parse raw data as a unicode string"
  | .notPath => "Input is not a valid path for <class 'pathlib.Path'>"
  | .notWhole => "Input should be a valid integer"
  | .unreadable => "Input should be a valid integer, unable to parse string as an integer"
  | .tooLong => "Unable to parse input string as an integer, exceeded maximum size"
  | .fraction => "Input should be a valid integer, got a number with a fractional part"
  | .notFinite => "Input should be a finite number"
  | .tooSmall => "Input should be greater than or equal to 1"
  | .tooLarge => "Input should be less than or equal to " ++ Text.natString maxSide
  | .wrongSchema given =>
    "Value error, Expected schema '" ++ schemaName ++ "', got '" ++ given ++ "'"
  | .badColor fault => "Value error, " ++ fault.message
  | .numberTooLong => "Value error, " ++ Text.tooLongMessage
  | .noSuffix path =>
    "Value error, Output path needs a file extension to pick a format: " ++ path
  | .frozen => "Instance is frozen"

/-- A cause and the key that it is found at. -/
structure Issue where
  key : String
  cause : Cause
  deriving DecidableEq, Repr

/-- The answer to a wish to change a field of a job: a job never changes. -/
def refuseChange (key : String) : Issue :=
  ⟨key, .frozen⟩

/-- Why there is no job. -/
inductive Fault where
  /-- A key of the mapping is no text. -/
  | unnamedKey
  /-- The fields have issues; a job that was read from a file names it. -/
  | invalid (file : Option String) (issues : List Issue)
  deriving DecidableEq, Repr

/-- The first line of a complaint. -/
def Fault.message : Fault → String
  | .unnamedKey => "keywords must be strings"
  | .invalid file issues =>
    (match file with
      | none => "Render job validation failed: "
      | some path => "Job config validation failed at " ++ path ++ ": ") ++
    Text.natString issues.length ++ " validation error" ++
    (if issues.length = 1 then "" else "s") ++ " for RenderJobV1"

end LoopPainter.Job
