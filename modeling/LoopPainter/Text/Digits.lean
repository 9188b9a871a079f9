import LoopPainter.Text.Blank

/-!
# Digits and whole numbers

Decimal digits come in runs of ten, one run for each script; `digitZeros` lists
where each run starts, and `digitValue?` reads a digit of any script.  A whole
number among program options may use every script (`readInteger?`), and so may a number
that a document declares to be one; the other formats of this library accept ASCII digits
only.

Writing a number in a base goes digit by digit, with as much fuel as the number
itself, which is always enough.
-/

namespace LoopPainter.Text

/-- The zero of every run of ten decimal digits. -/
def digitZeros : List Nat :=
  [0x30, 0x660, 0x6f0, 0x7c0, 0x966, 0x9e6, 0xa66, 0xae6, 0xb66, 0xbe6, 0xc66, 0xce6, 0xd66,
   0xde6, 0xe50, 0xed0, 0xf20, 0x1040, 0x1090, 0x17e0, 0x1810, 0x1946, 0x19d0, 0x1a80,
   0x1a90, 0x1b50, 0x1bb0, 0x1c40, 0x1c50, 0xa620, 0xa8d0, 0xa900, 0xa9d0, 0xa9f0, 0xaa50,
   0xabf0, 0xff10, 0x104a0, 0x10d30, 0x11066, 0x110f0, 0x11136, 0x111d0, 0x112f0, 0x11450,
   0x114d0, 0x11650, 0x116c0, 0x11730, 0x118e0, 0x11950, 0x11c50, 0x11d50, 0x11da0, 0x16a60,
   0x16ac0, 0x16b50, 0x1d7ce, 0x1d7d8, 0x1d7e2, 0x1d7ec, 0x1d7f6, 0x1e140, 0x1e2f0, 0x1e950,
   0x1fbf0]

/-- The value of a decimal digit of any script. -/
def digitValue? (c : Char) : Option Nat :=
  if '0' ≤ c && c ≤ '9' then some (c.toNat - 48)
  else if c.toNat < 0x80 then none
  else (digitZeros.find? fun first => first ≤ c.toNat && c.toNat < first + 10).map (c.toNat - ·)

/-- An ASCII decimal digit. -/
def isDigit (c : Char) : Bool :=
  '0' ≤ c && c ≤ '9'

/-- The value of an ASCII digit in a base of up to sixteen; other characters count as
nothing. -/
def hexValue (c : Char) : Nat :=
  if isDigit c then c.toNat - 48
  else if 'a' ≤ c && c ≤ 'f' then c.toNat - 87
  else if 'A' ≤ c && c ≤ 'F' then c.toNat - 55
  else 0

/-- An ASCII hexadecimal digit. -/
def isHexDigit (c : Char) : Bool :=
  isDigit c || ('a' ≤ c && c ≤ 'f') || ('A' ≤ c && c ≤ 'F')

/-- The number that a run of digits stands for in the given base. -/
def ofDigits (base : Nat) (digits : List Char) : Nat :=
  digits.foldl (fun n c => n * base + hexValue c) 0

/-- The character of a digit below sixteen. -/
def digitChar (n : Nat) : Char :=
  Char.ofNat (if n < 10 then 48 + n else 87 + n)

/-- The digits of `n` in front of `rest`, least significant last. -/
def digitsOnto (base : Nat) : Nat → Nat → List Char → List Char
  | 0, _, rest => rest
  | fuel + 1, n, rest =>
    let rest := digitChar (n % base) :: rest
    if n / base = 0 then rest else digitsOnto base fuel (n / base) rest

/-- A natural number written in a base from two to sixteen. -/
def natDigits (base n : Nat) : List Char :=
  digitsOnto base (n.log2 + 1) n []

theorem hexValue_digitChar : ∀ d < 16, hexValue (digitChar d) = d := by
  decide

theorem foldl_digitsOnto {base fuel n : Nat} (hb : base ≤ 16) (hn : n < Nat.pow base fuel)
    (rest : List Char) :
    ofDigits base (digitsOnto base fuel n rest) =
      rest.foldl (fun n c => n * base + hexValue c) n := by
  rw [Nat.pow_eq] at hn
  induction fuel generalizing n rest with
  | zero =>
    have : n = 0 := by simpa using hn
    simp [digitsOnto, ofDigits, this]
  | succ fuel ih =>
    have hpos : 0 < base := by
      rcases Nat.eq_zero_or_pos base with h | h
      · simp [h] at hn
      · exact h
    have hdigit := hexValue_digitChar (n % base) (Nat.lt_of_lt_of_le (Nat.mod_lt n hpos) hb)
    have hsplit := Nat.div_add_mod' n base
    unfold digitsOnto
    split
    case isTrue h =>
      simp only [h, Nat.zero_mul, Nat.zero_add] at hsplit
      rw [hsplit] at hdigit
      simp [ofDigits, hdigit, hsplit]
    case isFalse =>
      rw [ih ((Nat.div_lt_iff_lt_mul hpos).2 (by rwa [← Nat.pow_succ]))]
      simp [hdigit, hsplit]

/-- The digits of a number stand for that number. -/
@[simp] theorem ofDigits_natDigits {base : Nat} (hlow : 2 ≤ base) (hhigh : base ≤ 16) (n : Nat) :
    ofDigits base (natDigits base n) = n := by
  have hn : n < base ^ (n.log2 + 1) :=
    Nat.lt_of_lt_of_le Nat.lt_log2_self (Nat.pow_le_pow_left hlow _)
  simp [natDigits, foldl_digitsOnto hhigh hn]

/-- A natural number in decimal. -/
def decimal (n : Nat) : List Char :=
  natDigits 10 n

/-- A whole number in decimal, with a minus sign where it is negative. -/
def intDecimal (i : Int) : List Char :=
  match i with
  | .ofNat n => decimal n
  | .negSucc n => '-' :: decimal (n + 1)

/-- A natural number in the given base, filled with zeros up to `width` digits. -/
def padded (base width n : Nat) : List Char :=
  let digits := natDigits base n
  List.replicate (width - digits.length) '0' ++ digits

/-- A natural number in decimal, as a string. -/
def natString (n : Nat) : String :=
  String.ofList (decimal n)

/-- A whole number in decimal, as a string. -/
def intString (i : Int) : String :=
  String.ofList (intDecimal i)

/-- The values of a run of digits in which single underscores may stand between two
digits. -/
def groupedDigits? (value? : Char → Option Nat) : List Char → Option (List Nat)
  | [] => none
  | [c] => (value? c).map ([·])
  | c :: '_' :: rest => do
    let d ← value? c
    let ds ← groupedDigits? value? rest
    return d :: ds
  | c :: rest => do
    let d ← value? c
    let ds ← groupedDigits? value? rest
    return d :: ds

/-- The decimal number with the given digit values. -/
def ofDigitValues (ds : List Nat) : Nat :=
  ds.foldl (fun n d => n * 10 + d) 0

/-- The longest run of digits that is read as a number, and the longest that a number is
written with. -/
def maxDigits : Nat := 4300

/-- A number with more digits than are written. -/
def isTooLong (i : Int) : Bool :=
  Nat.pow 10 maxDigits ≤ i.natAbs

/-- The complaint about a number with more digits than are written. -/
def tooLongMessage : String :=
  "Exceeds the limit (4300 digits) for integer string conversion; " ++
    "use sys.set_int_max_str_digits() to increase the limit"

/-- Split an optional sign off; `true` means minus. -/
def splitSign : List Char → Bool × List Char
  | '-' :: rest => (true, rest)
  | '+' :: rest => (false, rest)
  | s => (false, s)

/-- A number with its sign. -/
def signed (negative : Bool) (n : Nat) : Int :=
  if negative then -(n : Int) else n

/-- A whole number with an optional sign, surrounding white space and single
underscores between its digits, which may be of any script. -/
def readInteger? (s : List Char) : Option Int := do
  let (negative, rest) := splitSign (trimBy isSpace s)
  let ds ← groupedDigits? digitValue? rest
  if ds.length ≤ maxDigits then some (signed negative (ofDigitValues ds)) else none

end LoopPainter.Text
