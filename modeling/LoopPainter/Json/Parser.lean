import LoopPainter.Datum

/-!
# Reading JSON

The reader takes a list of characters and gives the value at its front together
with what follows it.  Mappings keep the order of their keys; numbers with a point
or an exponent are floating-point, all others are whole numbers of any size.

Nesting is bounded by the length of the text, which is the fuel of the recursion.
-/

namespace LoopPainter.Json

/-- White space between tokens. -/
def isGap (c : Char) : Bool :=
  c == ' ' || c == '\t' || c == '\n' || c == '\r'

/-- Drop the white space at the front. -/
def skipGap (s : List Char) : List Char :=
  s.dropWhile isGap

/-- What follows `word`, if the text starts with it. -/
def after? : (word s : List Char) → Option (List Char)
  | [], s => some s
  | _ :: _, [] => none
  | w :: word, c :: s => if w == c then after? word s else none

/-- The value of four hexadecimal digits. -/
def unit? : List Char → Option (Nat × List Char)
  | a :: b :: c :: d :: rest =>
    if [a, b, c, d].all Text.isHexDigit then some (Text.ofDigits 16 [a, b, c, d], rest) else none
  | _ => none

/-- The character of a single-letter escape. -/
def simpleEscape? : Char → Option Char
  | '"' => some '"'
  | '\\' => some '\\'
  | '/' => some '/'
  | 'b' => some '\x08'
  | 'f' => some '\x0c'
  | 'n' => some '\n'
  | 'r' => some '\r'
  | 't' => some '\t'
  | _ => none

/-- The character after `\u`: one unit, or two that make a surrogate pair. -/
def unitEscape? (s : List Char) : Option (Char × List Char) := do
  let (high, rest) ← unit? s
  if 0xd800 ≤ high ∧ high < 0xdc00 then
    let rest ← after? ['\\', 'u'] rest
    let (low, rest) ← unit? rest
    if 0xdc00 ≤ low ∧ low < 0xe000 then
      some (Char.ofNat (0x10000 + (high - 0xd800) * 0x400 + (low - 0xdc00)), rest)
    else none
  else if 0xdc00 ≤ high ∧ high < 0xe000 then none
  else some (Char.ofNat high, rest)

/-- The rest of a quoted text, after its opening quote; `done` holds the characters read so
far, last first. -/
def textBody? : Nat → List Char → List Char → Option (List Char × List Char)
  | 0, _, _ => none
  | _ + 1, _, [] => none
  | _ + 1, done, '"' :: rest => some (done.reverse, rest)
  | fuel + 1, done, '\\' :: 'u' :: rest =>
    match unitEscape? rest with
    | some (c, rest) => textBody? fuel (c :: done) rest
    | none => none
  | fuel + 1, done, '\\' :: e :: rest =>
    match simpleEscape? e with
    | some c => textBody? fuel (c :: done) rest
    | none => none
  | fuel + 1, done, c :: rest =>
    if c.toNat < 0x20 || c == '\\' then none else textBody? fuel (c :: done) rest

/-- The text whose opening quote has just been read. -/
def text? (s : List Char) : Option (String × List Char) :=
  (textBody? s.length.succ [] s).map fun (body, rest) => (String.ofList body, rest)

/-- The characters that a number is made of. -/
def isNumberChar (c : Char) : Bool :=
  Text.isDigit c || c == '-' || c == '+' || c == '.' || c == 'e' || c == 'E'

/-- The number written by a run of number characters. -/
def number? (s : List Char) : Option Datum :=
  if s.any fun c => c == '.' || c == 'e' || c == 'E' then (Binary64.read? s).map .float
  else
    let (negative, digits) := Text.splitSign s
    if digits.isEmpty || s.head? == some '+' || !digits.all Text.isDigit then none
    else some (.int (Text.signed negative (Text.ofDigits 10 digits)))

mutual

/-- The value at the front. -/
def value? : Nat → List Char → Option (Datum × List Char)
  | 0, _ => none
  | fuel + 1, s =>
    match skipGap s with
    | '"' :: rest => (text? rest).map fun (body, rest) => (.text body, rest)
    | '[' :: rest =>
      match skipGap rest with
      | ']' :: rest => some (.list [], rest)
      | rest => (items? fuel rest).map fun (items, rest) => (.list items, rest)
    | '\x7b' :: rest =>
      match skipGap rest with
      | '\x7d' :: rest => some (.map [], rest)
      | rest => (pairs? fuel [] rest).map fun (pairs, rest) => (.map pairs, rest)
    | s =>
      match after? "null".toList s, after? "true".toList s, after? "false".toList s with
      | some rest, _, _ => some (.null, rest)
      | _, some rest, _ => some (.bool true, rest)
      | _, _, some rest => some (.bool false, rest)
      | none, none, none =>
        (number? (s.takeWhile isNumberChar)).map fun d => (d, s.dropWhile isNumberChar)

/-- The items of a list up to its closing bracket. -/
def items? : Nat → List Char → Option (List Datum × List Char)
  | 0, _ => none
  | fuel + 1, s => do
    let (item, rest) ← value? fuel s
    match skipGap rest with
    | ',' :: rest =>
      let (items, rest) ← items? fuel rest
      return (item :: items, rest)
    | ']' :: rest => return ([item], rest)
    | _ => none

/-- The pairs of a mapping up to its closing brace, after those already read. -/
def pairs? : Nat → List (Datum × Datum) → List Char → Option (List (Datum × Datum) × List Char)
  | 0, _, _ => none
  | fuel + 1, done, s =>
    match skipGap s with
    | '"' :: rest => do
      let (key, rest) ← text? rest
      let rest ← after? [':'] (skipGap rest)
      let (value, rest) ← value? fuel rest
      let done := Datum.putPair (.text key) value done
      match skipGap rest with
      | ',' :: rest => pairs? fuel done rest
      | '\x7d' :: rest => return (done, rest)
      | _ => none
    | _ => none

end

/-- Read a whole text as one value. -/
def parse (s : List Char) : Option Datum := do
  let (d, rest) ← value? s.length.succ s
  if (skipGap rest).isEmpty then some d else none

end LoopPainter.Json
