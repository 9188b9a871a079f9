import LoopPainter.Datum
import LoopPainter.Text.LetterCase
import LoopPainter.Yaml.Scalar
import LoopPainter.Yaml.Tag

/-!
# The data of YAML scalars

Scalars are read as their tag says, whatever their form.
-/

namespace LoopPainter.Yaml

/-- A text without underscores. -/
def withoutUnderscores (s : String) : List Char :=
  s.toList.filter (· != '_')

/-- The digits of a base. -/
def isDigitOf (base : Nat) (c : Char) : Bool :=
  Text.isHexDigit c && Text.hexValue c < base

/-- A decimal digit of any script as an ASCII digit; other characters stay. -/
def asciiDigit (c : Char) : Char :=
  match Text.digitValue? c with
  | some d => Text.digitChar d
  | none => c

/-- The letter that names a base other than ten. -/
def baseLetter? : Nat → Option Char
  | 2 => some 'b'
  | 8 => some 'o'
  | 16 => some 'x'
  | _ => none

/-- The digits behind a zero and the letter of the base, which may be written once more. -/
def dropBaseLetter (base : Nat) : List Char → List Char
  | '0' :: c :: ds => if baseLetter? base == some c.toLower then ds else '0' :: c :: ds
  | ds => ds

/-- A whole number in a base; the text as a whole is shown if it is none. -/
def readInBase (base : Nat) (s : List Char) : Reads Int :=
  if base = 10 then
    match Text.readInteger? s with
    | some i => .ok i
    | none =>
      if Text.maxDigits < s.length && s.all Text.isDigit then .error (.tooManyDigits s.length)
      else .error (.badInteger base (String.ofList s))
  else
    let (negative, rest) := Text.splitSign ((Text.trimBy Text.isSpace s).map asciiDigit)
    let ds := dropBaseLetter base rest
    if !ds.isEmpty && ds.all (isDigitOf base) then
      .ok (Text.signed negative (Text.ofDigits base ds))
    else .error (.badInteger base (String.ofList s))

/-- A number in base sixty from its parts, the most significant first. -/
def ofSixtieths (parts : List Int) : Int :=
  parts.foldl (fun n d => n * 60 + d) 0

/-- The whole number that a scalar stands for. -/
def readInteger (text : String) : Reads Int :=
  match withoutUnderscores text with
  | [] => .error .emptyNumber
  | first :: rest =>
    let negative := first == '-'
    let s := if first == '-' || first == '+' then rest else first :: rest
    let sign (i : Int) : Int := if negative then -i else i
    match s with
    | ['0'] => .ok 0
    | '0' :: 'b' :: ds => (readInBase 2 ds).map sign
    | '0' :: 'x' :: ds => (readInBase 16 ds).map sign
    | [] => .error .emptyNumber
    | '0' :: _ => (readInBase 8 s).map sign
    | s =>
      if s.contains ':' then do
        let parts ← (Tag.splitColons s).mapM (readInBase 10)
        return sign (ofSixtieths parts)
      else (readInBase 10 s).map sign

/-- A floating-point number; the text is shown if it is none. -/
def readDecimal (s : List Char) : Reads Binary64 :=
  match Binary64.read? ((Text.trimBy Text.isSpace s).map asciiDigit) with
  | some x => .ok x
  | none => .error (.badFloat (String.ofList s))

/-- A number in base sixty from its parts, the least significant first.  The weight of a part must
not be beyond all floating-point numbers, even if the part is zero. -/
def ofFloatSixtieths (weight : Nat) (total : Binary64) : List Binary64 → Reads Binary64
  | [] => .ok total
  | d :: ds =>
    match Binary64.ofInt weight with
    | .inf _ => .error .weightTooLarge
    | w => ofFloatSixtieths (weight * 60) (total.add (d.mul w)) ds

/-- The floating-point number that a scalar stands for. -/
def readFloat (text : String) : Reads Binary64 :=
  match Text.lower (withoutUnderscores text) with
  | [] => .error .emptyNumber
  | first :: rest =>
    let s := if first == '-' || first == '+' then rest else first :: rest
    let sign (x : Binary64) : Binary64 := if first == '-' then x.neg else x
    if s == ".inf".toList then .ok (sign (.inf false))
    else if s == ".nan".toList then .ok .nan
    else if s.contains ':' then do
      let parts ← (Tag.splitColons s).mapM readDecimal
      return sign (← ofFloatSixtieths 1 .zero parts.reverse)
    else (readDecimal s).map sign

/-- The truth value that a scalar stands for. -/
def readTruthValue (text : String) : Reads Bool :=
  let s := Text.lowerString text
  if ["yes", "true", "on"].contains s then .ok true
  else if ["no", "false", "off"].contains s then .ok false
  else .error (.badTruthValue s)

/-- The date or time that a scalar stands for. -/
def readTimestamp (text : String) : Reads Datum :=
  match Timestamp.read? text.toList with
  | none => .error .notATimestamp
  | some t =>
    match t.time with
    | none => t.toDay.map .day
    | some time => (t.toMoment time).map .moment

/-- The value of a character in base sixty-four. -/
def sextet? (c : Char) : Option Nat :=
  if 'A' ≤ c && c ≤ 'Z' then some (c.toNat - 65)
  else if 'a' ≤ c && c ≤ 'z' then some (c.toNat - 71)
  else if Text.isDigit c then some (c.toNat + 4)
  else if c == '+' then some 62
  else if c == '/' then some 63
  else none

/-- Bytes from base sixty-four.  `left` holds the last sextets of a group of four, `pads` the
equals signs after them; other characters are passed over. -/
def bytesOfSextets : (left : List Nat) → (pads : Nat) → List Char → Option (List UInt8)
  | left, _, [] => if left.isEmpty then some [] else none
  | left, pads, c :: rest =>
    if c == '=' then
      if 2 ≤ left.length && 4 ≤ left.length + pads + 1 then some []
      else bytesOfSextets left (if 2 ≤ left.length then pads + 1 else pads) rest
    else
      match sextet? c with
      | none => bytesOfSextets left pads rest
      | some d =>
        match left with
        | [] => bytesOfSextets [d] 0 rest
        | [a] => (bytesOfSextets [a, d] 0 rest).map (UInt8.ofNat (a * 4 + d / 16) :: ·)
        | [a, b] =>
          (bytesOfSextets [a, b, d] 0 rest).map (UInt8.ofNat (b % 16 * 16 + d / 4) :: ·)
        | _ :: _ :: e :: _ =>
          (bytesOfSextets [] 0 rest).map (UInt8.ofNat (e % 4 * 64 + d) :: ·)

/-- The bytes that a scalar stands for. -/
def readBytes (text : String) : Reads (List UInt8) :=
  if text.toList.all fun c => c.toNat < 0x80 then
    match bytesOfSextets [] 0 text.toList with
    | some bytes => .ok bytes
    | none => malformed
  else malformed

/-- How the scalars with a tag are read, if the tag has a meaning for them. -/
def scalarReader? : Tag → Option (String → Reads Datum)
  | .null => some fun _ => .ok .null
  | .bool => some fun s => (readTruthValue s).map .bool
  | .int => some fun s => (readInteger s).map .int
  | .float => some fun s => (readFloat s).map .float
  | .timestamp => some readTimestamp
  | .str => some fun s => .ok (.text s)
  | .binary => some fun s => (readBytes s).map .bytes
  | _ => none

end LoopPainter.Yaml
