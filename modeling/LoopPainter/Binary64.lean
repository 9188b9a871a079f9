import LoopPainter.Text.Digits

/-!
# Binary floating-point numbers

A number is a not-a-number, an infinity, or `± significand · 2 ^ exponent`.
Every operation works on exact fractions and rounds once, to the nearest
representable value with ties to the even significand (`FloatFormat.round`), so
nothing here depends on machine floating point.

The format is a parameter of rounding; the numbers of this library are double precision.
-/

namespace LoopPainter

/-- A binary floating-point format: significand bits and the range of the exponent of
the last bit. -/
structure FloatFormat where
  precision : Nat
  minExponent : Int
  maxExponent : Int

/-- A binary floating-point number. -/
inductive Binary64 where
  | nan
  | inf (negative : Bool)
  | finite (negative : Bool) (significand : Nat) (exponent : Int)
  deriving DecidableEq, Repr, Inhabited

/-- Double precision. -/
def FloatFormat.double : FloatFormat := ⟨53, -1074, 971⟩

/-- The quotient `num / den` rounded to the nearest natural number, ties to even. -/
def roundQuotient (num den : Nat) : Nat :=
  let q := num / den
  let r := num % den
  if 2 * r < den then q
  else if den < 2 * r then q + 1
  else if q % 2 == 0 then q else q + 1

/-- The whole part of the binary logarithm of `num / den`, both positive. -/
def floorLog2 (num den : Nat) : Int :=
  let k : Int := (num.log2 : Int) - den.log2
  if den * Nat.pow 2 k.toNat ≤ num * Nat.pow 2 (-k).toNat then k else k - 1

/-- Round the fraction `num / den` with the given sign to a format. -/
def FloatFormat.round (f : FloatFormat) (negative : Bool) (num den : Nat) : Binary64 :=
  if num = 0 then .finite negative 0 0
  else
    let e := max (floorLog2 num den - (f.precision - 1 : Nat)) f.minExponent
    let m := roundQuotient (num * Nat.pow 2 (-e).toNat) (den * Nat.pow 2 e.toNat)
    let (m, e) :=
      if m = Nat.pow 2 f.precision then (Nat.pow 2 (f.precision - 1), e + 1) else (m, e)
    if m = 0 then .finite negative 0 0
    else if f.maxExponent < e then .inf negative
    else .finite negative m e

namespace Binary64

/-- Round a fraction to double precision. -/
def ofFraction (negative : Bool) (num den : Nat) : Binary64 :=
  FloatFormat.double.round negative num den

/-- The nearest number to a whole number. -/
def ofInt (i : Int) : Binary64 :=
  ofFraction (i < 0) i.natAbs 1

/-- Zero without a sign. -/
def zero : Binary64 := .finite false 0 0

/-- Numerator and denominator of a non-negative binary fraction. -/
def fraction (significand : Nat) (exponent : Int) : Nat × Nat :=
  (significand * Nat.pow 2 exponent.toNat, Nat.pow 2 (-exponent).toNat)

/-- The sign bit. -/
def isNegative : Binary64 → Bool
  | nan => false
  | inf n => n
  | finite n _ _ => n

/-- A number that is neither infinite nor a not-a-number. -/
def isFinite : Binary64 → Bool
  | finite _ _ _ => true
  | _ => false

/-- The exact value of a finite number, as a signed numerator and a denominator. -/
def toFraction? : Binary64 → Option (Int × Nat)
  | finite n m e =>
    let (num, den) := fraction m e
    some (Text.signed n num, den)
  | _ => none

/-- The whole number that a finite number equals, if it has no fractional part. -/
def toInt? (x : Binary64) : Option Int := do
  let (num, den) ← x.toFraction?
  if num % den = 0 then some (num / den) else none

/-- The whole part, toward zero, of a finite number. -/
def truncate? (x : Binary64) : Option Int := do
  let (num, den) ← x.toFraction?
  return num.tdiv den

/-- Equality of values: the two zeros are equal, and so are two not-a-numbers. -/
def sameValue : Binary64 → Binary64 → Bool
  | nan, nan => true
  | inf a, inf b => a == b
  | x, y =>
    match x.toFraction?, y.toFraction? with
    | some (a, b), some (c, d) => a * d == c * b
    | _, _ => false

/-- Order of values; a not-a-number is not below anything. -/
def lt : Binary64 → Binary64 → Bool
  | nan, _ => false
  | _, nan => false
  | inf a, inf b => a && !b
  | inf a, _ => a
  | _, inf b => !b
  | x, y =>
    match x.toFraction?, y.toFraction? with
    | some (a, b), some (c, d) => a * d < c * b
    | _, _ => false

/-- The number with the other sign. -/
def neg : Binary64 → Binary64
  | nan => nan
  | inf n => inf !n
  | finite n m e => finite (!n) m e

/-- The rounded sum. -/
def add : Binary64 → Binary64 → Binary64
  | nan, _ => nan
  | _, nan => nan
  | inf a, inf b => if a == b then inf a else nan
  | inf a, _ => inf a
  | _, inf b => inf b
  | finite n m e, finite n' m' e' =>
    let (a, b) := fraction m e
    let (c, d) := fraction m' e'
    let total := Text.signed n (a * d) + Text.signed n' (c * b)
    if total = 0 then finite (n && n') 0 0
    else ofFraction (total < 0) total.natAbs (b * d)

/-- The rounded product. -/
def mul : Binary64 → Binary64 → Binary64
  | nan, _ => nan
  | _, nan => nan
  | inf a, inf b => inf (a != b)
  | inf a, finite n m _ => if m = 0 then nan else inf (a != n)
  | finite n m _, inf b => if m = 0 then nan else inf (n != b)
  | finite n m e, finite n' m' e' =>
    let (a, b) := fraction m e
    let (c, d) := fraction m' e'
    ofFraction (n != n') (a * c) (b * d)

/-- The number closest to `digits · 10 ^ exponent`. -/
def ofDecimal (negative : Bool) (digits : Nat) (exponent : Int) : Binary64 :=
  ofFraction negative (digits * Nat.pow 10 exponent.toNat) (Nat.pow 10 (-exponent).toNat)

/-- Split a run of ASCII digits off. -/
def spanDigits (s : List Char) : List Char × List Char :=
  (s.takeWhile Text.isDigit, s.dropWhile Text.isDigit)

/-- Read a decimal number with optional sign, point and exponent, or one of the words
`inf`, `infinity` and `nan`. -/
def read? (s : List Char) : Option Binary64 := do
  let (negative, rest) := Text.splitSign s
  if rest == "inf".toList || rest == "infinity".toList then return inf negative
  if rest == "nan".toList then return nan
  let (whole, rest) := spanDigits rest
  let (part, rest) :=
    match rest with
    | '.' :: rest => spanDigits rest
    | rest => ([], rest)
  if whole.isEmpty && part.isEmpty then none
  let exponent ←
    match rest with
    | [] => some 0
    | 'e' :: rest | 'E' :: rest =>
      let (minus, rest) := Text.splitSign rest
      if rest.isEmpty || !rest.all Text.isDigit then none
      else some (Text.signed minus (Text.ofDigits 10 rest))
    | _ => none
  let digits := Text.ofDigits 10 (whole ++ part)
  -- Exponents far outside the range decide the result without the power of ten.
  let magnitude := exponent + (whole.length : Int)
  if digits = 0 then return finite negative 0 0
  if 400 < exponent - part.length then return inf negative
  if magnitude < -800 then return finite negative 0 0
  return ofDecimal negative digits (exponent - part.length)

end Binary64

end LoopPainter
