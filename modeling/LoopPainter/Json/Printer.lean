import LoopPainter.Datum

/-!
# Writing JSON

A datum on one line of printable ASCII characters, with a space after every comma
and colon.  Text is quoted with every character outside the printable ASCII range
escaped; a character beyond the basic plane becomes the two units of its surrogate
pair.  Values that JSON does not have are written as the text that displays them.
-/

namespace LoopPainter.Json

/-- The escape of a 16-bit unit. -/
def unitEscape (n : Nat) : List Char :=
  '\\' :: 'u' :: Text.padded 16 4 n

/-- One character of a quoted text. -/
def escapeChar (c : Char) : List Char :=
  if c == '"' || c == '\\' then ['\\', c]
  else if c == '\n' then ['\\', 'n']
  else if c == '\r' then ['\\', 'r']
  else if c == '\t' then ['\\', 't']
  else if c == '\x08' then ['\\', 'b']
  else if c == '\x0c' then ['\\', 'f']
  else if ' ' ≤ c && c ≤ '~' then [c]
  else if c.toNat < 0x10000 then unitEscape c.toNat
  else
    let n := c.toNat - 0x10000
    unitEscape (0xd800 + n / 0x400) ++ unitEscape (0xdc00 + n % 0x400)

/-- A text between quotes. -/
def printText (s : List Char) : List Char :=
  '"' :: s.flatMap escapeChar ++ ['"']

/-- A number; the values that are not finite are written as words. -/
def printFloat : Binary64 → List Char
  | .nan => "NaN".toList
  | .inf n => (if n then "-Infinity" else "Infinity").toList
  | x => x.display

/-- The text of a mapping key. -/
def keyText : Datum → List Char
  | .text s => s.toList
  | .null => "null".toList
  | .bool b => (if b then "true" else "false").toList
  | .float x => printFloat x
  | d => d.display

mutual

/-- A datum as JSON. -/
def print : Datum → List Char
  | .null => "null".toList
  | .bool b => (if b then "true" else "false").toList
  | .int i => Text.intDecimal i
  | .float x => printFloat x
  | .text s => printText s.toList
  | .list items => '[' :: Datum.commaSeparated (printAll items) ++ [']']
  | .tuple items => '[' :: Datum.commaSeparated (printAll items) ++ [']']
  | .map pairs => '\x7b' :: Datum.commaSeparated (printPairs pairs) ++ ['\x7d']
  | d => printText d.display

/-- The items of a list as JSON. -/
def printAll : List Datum → List (List Char)
  | [] => []
  | x :: rest => print x :: printAll rest

/-- The pairs of a mapping as JSON. -/
def printPairs : List (Datum × Datum) → List (List Char)
  | [] => []
  | (k, v) :: rest => (printText (keyText k) ++ ':' :: ' ' :: print v) :: printPairs rest

end

/-- A datum as a JSON line. -/
def printLine (d : Datum) : String :=
  String.ofList (print d)

end LoopPainter.Json
