import LoopPainter.Yaml.Timestamp

/-!
# Tags and what plain scalars mean

Every node has a tag, which says what kind of value it is.  A plain scalar without a
tag gets one by its form alone: truth values, whole and floating-point numbers, nulls,
dates, the merge key `<<` and the default key `=` have forms of their own, and whatever
has none of these is text.
-/

namespace LoopPainter.Yaml

/-- The kind of a value. -/
inductive Tag where
  | null
  | bool
  | int
  | float
  | timestamp
  | merge
  | value
  | str
  | binary
  | seq
  | map
  | set
  | omap
  | pairs
  | other (name : String)
  deriving DecidableEq, Inhabited

namespace Tag

/-- What the names of the standard tags start with. -/
def standard : String := "tag:yaml.org,2002:"

/-- The tag with a full name. -/
def ofName (name : String) : Tag :=
  let named : List (String × Tag) :=
    [("null", null), ("bool", bool), ("int", int), ("float", float), ("timestamp", timestamp),
      ("merge", merge), ("value", value), ("str", str), ("binary", binary), ("seq", seq),
      ("map", map), ("set", set), ("omap", omap), ("pairs", pairs)]
  match named.find? fun (n, _) => name == standard ++ n with
  | some (_, t) => t
  | none => other name

/-- Whether the values with a tag are collections. -/
def isCollection : Tag → Bool
  | seq | map | set | omap | pairs => true
  | _ => false

/-! ## Forms of plain scalars -/

/-- The spellings of truth values. -/
def isTruthValue (s : List Char) : Bool :=
  ["yes", "Yes", "YES", "no", "No", "NO", "true", "True", "TRUE", "false", "False", "FALSE",
    "on", "On", "ON", "off", "Off", "OFF"].contains (String.ofList s)

/-- The spellings of the null value. -/
def isNull (s : List Char) : Bool :=
  ["~", "null", "Null", "NULL", ""].contains (String.ofList s)

/-- A digit or an underscore. -/
def isDigitOr_ (c : Char) : Bool :=
  Text.isDigit c || c == '_'

/-- A digit from one to nine, then digits and underscores. -/
def isPositiveRun : List Char → Bool
  | c :: s => '1' ≤ c && c ≤ '9' && s.all isDigitOr_
  | [] => false

/-- A digit, then digits and underscores. -/
def isDigitRun : List Char → Bool
  | c :: s => Text.isDigit c && s.all isDigitOr_
  | [] => false

/-- A number below sixty, of one or two digits. -/
def isSixtieth : List Char → Bool
  | [c] => Text.isDigit c
  | [c, d] => '0' ≤ c && c ≤ '5' && Text.isDigit d
  | _ => false

/-- Cut a text at every colon. -/
def splitColons : List Char → List (List Char)
  | [] => [[]]
  | c :: rest =>
    if c == ':' then [] :: splitColons rest
    else
      match splitColons rest with
      | [] => [[c]]
      | part :: parts => (c :: part) :: parts

/-- A first part and at least one number below sixty, with colons between. -/
def isSexagesimal (first : List Char → Bool) (s : List Char) : Bool :=
  match splitColons s with
  | part :: p :: parts => first part && (p :: parts).all isSixtieth
  | _ => false

/-- A whole number: binary, octal, decimal, hexadecimal or in base sixty. -/
def isInteger (s : List Char) : Bool :=
  let (_, s) := Text.splitSign s
  match s with
  | ['0'] => true
  | '0' :: 'b' :: ds => !ds.isEmpty && ds.all fun c => c == '0' || c == '1' || c == '_'
  | '0' :: 'x' :: ds => !ds.isEmpty && ds.all fun c => Text.isHexDigit c || c == '_'
  | '0' :: ds => ds.all fun c => ('0' ≤ c && c ≤ '7') || c == '_'
  | s => isPositiveRun s || isSexagesimal isPositiveRun s

/-- Nothing, or an exponent with a sign. -/
def isExponent : List Char → Bool
  | [] => true
  | e :: sign :: ds =>
    (e == 'e' || e == 'E') && (sign == '+' || sign == '-') && !ds.isEmpty && ds.all Text.isDigit
  | _ => false

/-- A floating-point number: with a point, an infinity or a not-a-number. -/
def isFloat (s : List Char) : Bool :=
  let unsigned := (Text.splitSign s).2
  let whole := unsigned.takeWhile (· != '.')
  match unsigned.dropWhile (· != '.') with
  | [] => false
  | _ :: part =>
    let fraction := part.takeWhile isDigitOr_
    let rest := part.dropWhile isDigitOr_
    (isDigitRun whole && isExponent rest) ||
      (isSexagesimal isDigitRun whole && rest.isEmpty) ||
      (s.head? == some '.' && isDigitRun fraction && isExponent rest) ||
      (whole.isEmpty && ["inf", "Inf", "INF"].contains (String.ofList part)) ||
      [".nan", ".NaN", ".NAN"].contains (String.ofList s)

/-- The tag of a plain scalar without one. -/
def ofPlain (s : List Char) : Tag :=
  let form := withoutFinalBreak s
  if isTruthValue form then bool
  else if isFloat form then float
  else if isInteger form then int
  else if form == ['<', '<'] then merge
  else if isNull form then null
  else if Timestamp.isPlain s then timestamp
  else if form == ['='] then value
  else str

end Tag

end LoopPainter.Yaml
