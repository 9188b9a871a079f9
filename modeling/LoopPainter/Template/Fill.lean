import LoopPainter.Binary64.Places
import LoopPainter.Datum
import LoopPainter.Template

/-!
# Filling templates in

The values of a template are used up one by one, and all of them have to be used.  A single
value that is a mapping may also be looked up by keys, and then need not be used up.

A template without values is not filled in at all, so that percent signs in it stand for
themselves (`message`).
-/

namespace LoopPainter.Template

/-- Why a template was not filled in. -/
inductive Fault where
  | tooFewValues
  | tooManyValues
  | noMapping
  | wrongType
  | missingKey (key : String)
  | unclosedKey
  | incomplete
  | widthTooBig
  | precisionTooBig
  | precisionTooLarge
  | starWidthTooLarge
  | starPrecisionTooLarge
  | unknownLetter (letter : Char) (position : Nat)
  | nanToWhole
  | infiniteToWhole
  | tooLargeForFloat
  | noSuchCharacter
  deriving DecidableEq, Repr

/-- The letter of a directive in a complaint. -/
def shownLetter (c : Char) : Char :=
  if 31 ≤ c.toNat && c.toNat < 127 then c else '?'

/-- The text of a complaint. -/
def Fault.message : Fault → String
  | .tooFewValues => "not enough arguments for format string"
  | .tooManyValues => "not all arguments converted during string formatting"
  | .noMapping => "format requires a mapping"
  | .wrongType => "the value does not fit its directive"
  | .missingKey key => Text.quotedString key
  | .unclosedKey => "incomplete format key"
  | .incomplete => "incomplete format"
  | .widthTooBig => "width too big"
  | .precisionTooBig => "precision too big"
  | .precisionTooLarge => "precision too large"
  | .starWidthTooLarge => "Python int too large to convert to C ssize_t"
  | .starPrecisionTooLarge => "Python int too large to convert to C int"
  | .unknownLetter c position =>
    "unsupported format character '" ++ String.ofList [shownLetter c] ++ "' (0x" ++
      String.ofList (Text.natDigits 16 c.toNat) ++ ") at index " ++ Text.natString position
  | .nanToWhole => "cannot convert float NaN to integer"
  | .infiniteToWhole => "cannot convert float infinity to integer"
  | .tooLargeForFloat => "int too large to convert to float"
  | .noSuchCharacter => "%c arg not in range(0x110000)"

/-! ## Layout -/

/-- How a shown value is padded. -/
structure Frame where
  flags : Flags
  width : Nat
  precision : Option Nat

/-- Put a sign, a base mark and digits into a frame; zeros go between mark and digits. -/
def Frame.place (f : Frame) (zeros : Bool) (sign mark body : List Char) : List Char :=
  let n := f.width - (sign ++ mark ++ body).length
  if f.flags.left then sign ++ mark ++ body ++ List.replicate n ' '
  else if zeros then sign ++ mark ++ List.replicate n '0' ++ body
  else List.replicate n ' ' ++ sign ++ mark ++ body

/-- Put a text into a frame. -/
def Frame.text (f : Frame) (s : List Char) : List Char :=
  f.place false [] [] s

/-- The sign of a number. -/
def Frame.sign (f : Frame) (negative : Bool) : List Char :=
  if negative then ['-'] else if f.flags.plus then ['+'] else if f.flags.blank then [' '] else []

/-- Put a whole number into a frame. -/
def Frame.whole (f : Frame) (base : Nat) (mark : List Char) (i : Int) : List Char :=
  f.place f.flags.zero (f.sign (i < 0)) (if f.flags.alternate then mark else [])
    (Text.padded base (f.precision.getD 0) i.natAbs)

/-- The digits of a floating-point number by the letter of its directive. -/
def floatBody (letter : Char) (always : Bool) (places : Nat) (x : Binary64) : List Char :=
  match x with
  | .nan => "nan".toList
  | .inf _ => "inf".toList
  | .finite _ m e =>
    let (num, den) := Binary64.fraction m e
    match letter with
    | 'e' => Binary64.exponentPlaces always 'e' places num den
    | 'f' => Binary64.fixedPlaces always places num den
    | _ => Binary64.generalPlaces always 'e' places num den

/-- Put a floating-point number into a frame. -/
def Frame.float (f : Frame) (letter : Char) (x : Binary64) : List Char :=
  let body := floatBody letter.toLower f.flags.alternate (f.precision.getD 6) x
  f.place f.flags.zero (f.sign x.isNegative) []
    (if letter.isUpper then body.map Char.toUpper else body)

/-! ## Values -/

/-- A value as a whole number; floating-point numbers lose their fraction. -/
def wholeOf : Datum → Except Fault Int
  | .int i => .ok i
  | .bool b => .ok (if b then 1 else 0)
  | .float .nan => .error .nanToWhole
  | .float (.inf _) => .error .infiniteToWhole
  | .float x => .ok (x.truncate?.getD 0)
  | _ => .error .wrongType

/-- A value as a whole number, if it is one. -/
def exactWholeOf : Datum → Except Fault Int
  | .int i => .ok i
  | .bool b => .ok (if b then 1 else 0)
  | _ => .error .wrongType

/-- A value as a floating-point number. -/
def floatOf : Datum → Except Fault Binary64
  | .float x => .ok x
  | d => do
    let x := Binary64.ofInt (← exactWholeOf d)
    if x.isFinite then return x else throw .tooLargeForFloat

/-- A value as a character. -/
def characterOf : Datum → Except Fault Char
  | .text s =>
    match s.toList with
    | [c] => .ok c
    | _ => .error .wrongType
  | d => do
    let i ← exactWholeOf d
    if 0 ≤ i ∧ i < 0x110000 then return Char.ofNat i.toNat else throw .noSuchCharacter

/-- A literal with everything beyond ASCII escaped. -/
def asciiLiteral (d : Datum) : List Char :=
  d.literal.flatMap fun c => if c.toNat < 0x80 then [c] else Text.numericEscape c.toNat

/-- The largest precision of a whole number. -/
def maxPrecision : Nat := 0x7FFFFFFC

/-- Show a value by the letter of a directive. -/
def shown (f : Frame) (letter : Char) (position : Nat) (d : Datum) : Except Fault (List Char) := do
  let cut (s : List Char) : List Char := f.text (f.precision.elim s fun n => s.take n)
  let whole (base : Nat) (mark : String) (i : Int) : Except Fault (List Char) :=
    if maxPrecision < f.precision.getD 0 then .error .precisionTooLarge
    else .ok (f.whole base mark.toList i)
  match letter with
  | 's' => return cut d.display
  | 'r' => return cut d.literal
  | 'a' => return cut (asciiLiteral d)
  | 'd' | 'i' | 'u' => whole 10 "" (← wholeOf d)
  | 'o' => whole 8 "0o" (← exactWholeOf d)
  | 'x' => whole 16 "0x" (← exactWholeOf d)
  | 'X' => return (← whole 16 "0x" (← exactWholeOf d)).map Char.toUpper
  | 'e' | 'f' | 'g' | 'E' | 'F' | 'G' => return f.float letter (← floatOf d)
  | 'c' => return f.text [← characterOf d]
  | _ => throw (.unknownLetter letter position)

/-! ## Filling in -/

/-- The values that are left. -/
structure Values where
  mapping : Option (List (Datum × Datum))
  queue : List Datum

/-- The values of a template; a single mapping that is not empty can be looked up. -/
def Values.ofList : List Datum → Values
  | [.map (p :: ps)] => ⟨some (p :: ps), [.map (p :: ps)]⟩
  | args => ⟨none, args⟩

/-- Use the next value up. -/
def Values.next (v : Values) : Except Fault (Datum × Values) :=
  match v.queue with
  | [] => .error .tooFewValues
  | d :: rest => .ok (d, { v with queue := rest })

/-- Look the key of a directive up. -/
def Values.choose (v : Values) (key : Key) : Except Fault Values :=
  match key, v.mapping with
  | .absent, _ => .ok v
  | _, none => .error .noMapping
  | .unclosed, some _ => .error .unclosedKey
  | .named key, some pairs =>
    match Datum.get? key pairs with
    | some d => .ok { v with queue := [d] }
    | none => .error (.missingKey key)

/-- The largest width. -/
def maxWidth : Nat := 0x7FFFFFFFFFFFFFFF

/-- The largest precision that can be written. -/
def maxWritten : Nat := 0x7FFFFFFF

/-- The width of a directive; a negative one asks for the value to be on the left. -/
def Values.width (v : Values) (flags : Flags) :
    Amount → Except Fault (Flags × Nat × Values)
  | .absent => .ok (flags, 0, v)
  | .digits n => if maxWidth < n then .error .widthTooBig else .ok (flags, n, v)
  | .star => do
    let (d, v) ← v.next
    let i ← exactWholeOf d
    if maxWidth < i.natAbs then throw .starWidthTooLarge
    return (if i < 0 then { flags with left := true } else flags, i.natAbs, v)

/-- The precision of a directive; a negative one counts as zero. -/
def Values.precision (v : Values) : Amount → Except Fault (Option Nat × Values)
  | .absent => .ok (none, v)
  | .digits n => if maxWritten < n then .error .precisionTooBig else .ok (some n, v)
  | .star => do
    let (d, v) ← v.next
    let i ← exactWholeOf d
    if i < -(maxWritten + 1) ∨ maxWritten < i then throw .starPrecisionTooLarge
    return (some i.toNat, v)

/-- Fill in one part. -/
def fillPart (v : Values) : Part → Except Fault (List Char × Values)
  | .plain c => .ok ([c], v)
  | .directive d position => do
    let v ← v.choose d.key
    let (flags, width, v) ← v.width d.flags d.width
    let (precision, v) ← v.precision d.precision
    match d.letter with
    | none => throw .incomplete
    | some letter =>
      let (value, v) ← v.next
      return (← shown ⟨flags, width, precision⟩ letter position value, v)

/-- Fill in the parts of a template. -/
def fillParts (v : Values) : List Part → Except Fault (List Char)
  | [] => if v.mapping.isNone && !v.queue.isEmpty then .error .tooManyValues else .ok []
  | p :: rest => do
    let (front, v) ← fillPart v p
    return front ++ (← fillParts v rest)

/-- Fill a template in. -/
def fill (template : List Char) (args : List Datum) : Except Fault (List Char) :=
  fillParts (Values.ofList args) (parts template)

/-- The message that a template and values make. -/
def message (template : String) (args : List Datum) : Except Fault String :=
  if args.isEmpty then .ok template
  else (fill template.toList args).map String.ofList

end LoopPainter.Template
