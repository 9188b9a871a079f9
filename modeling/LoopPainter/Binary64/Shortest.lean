import LoopPainter.Binary64

/-!
# The shortest decimal that reads back

`shortest` gives the decimal digits of a positive number: the fewest digits that
read back as the same number, and of the candidates with that many digits the
one nearest to it.  For each length from one to seventeen only two decimals can
qualify, the neighbors of the number on the grid of that length; seventeen
digits always suffice.

`display` lays the digits out: positional when the decimal point falls within
sixteen digits or up to four zeros before them, with an exponent otherwise.
-/

namespace LoopPainter.Binary64

/-- Whether the decimal `digits · 10 ^ exponent` reads back as `x`. -/
def readsBack (x : Binary64) (digits : Nat) (exponent : Int) : Bool :=
  ofDecimal false digits exponent == x

/-- Compare `num / den` with a power of ten. -/
def belowPowerOfTen (num den : Nat) (k : Int) : Bool :=
  num * Nat.pow 10 (-k).toNat < den * Nat.pow 10 k.toNat

/-- The number of digits before the decimal point of `num / den`, counted negatively
for zeros after it: the `k` with `10 ^ (k - 1) ≤ num / den < 10 ^ k`. -/
def pointPosition (num den : Nat) : Int :=
  let k := (floorLog2 num den * 30103) / 100000 + 1
  if belowPowerOfTen num den (k - 1) then k - 1
  else if belowPowerOfTen num den k then k
  else k + 1

/-- The better neighbor of `num / den` among the multiples of `10 ^ exponent`. -/
def nearestReadingBack? (x : Binary64) (num den : Nat) (exponent : Int) : Option Nat :=
  let num := num * Nat.pow 10 (-exponent).toNat
  let den := den * Nat.pow 10 exponent.toNat
  let low := num / den
  let r := num % den
  match readsBack x low exponent, readsBack x (low + 1) exponent with
  | true, true =>
    some (if 2 * r < den then low else if den < 2 * r then low + 1
      else if low % 2 == 0 then low else low + 1)
  | true, false => some low
  | false, true => some (low + 1)
  | false, false => none

/-- Try the lengths `length`, `length + 1`, … up to `length + fuel`. -/
def shortestFrom (x : Binary64) (num den : Nat) (point : Int) : Nat → Nat → Nat × Int
  | 0, length => (roundQuotient (num * Nat.pow 10 ((length : Int) - point).toNat)
      (den * Nat.pow 10 (point - length).toNat), point - length)
  | fuel + 1, length =>
    match nearestReadingBack? x num den (point - length) with
    | some digits => (digits, point - length)
    | none => shortestFrom x num den point fuel (length + 1)

/-- Drop trailing zeros. -/
def dropTrailingZeros (s : List Char) : List Char :=
  (s.reverse.dropWhile (· == '0')).reverse

/-- The shortest digits of a positive finite number, and the position of the decimal
point counted from the first digit. -/
def shortest (significand : Nat) (exponent : Int) : List Char × Int :=
  let (num, den) := fraction significand exponent
  let (digits, e) := shortestFrom (finite false significand exponent) num den
    (pointPosition num den) 16 1
  let text := Text.decimal digits
  (dropTrailingZeros text, e + text.length)

/-- A decimal exponent: its sign and at least two digits. -/
def exponentText (letter : Char) (e : Int) : List Char :=
  letter :: (if e < 0 then '-' else '+') :: Text.padded 10 2 e.natAbs

/-- Lay out digits with the decimal point after `point` of them. -/
def layOut (digits : List Char) (point : Int) : List Char :=
  if -4 < point && point ≤ 16 then
    if point ≤ 0 then
      '0' :: '.' :: List.replicate (-point).toNat '0' ++ digits
    else
      let whole := digits.take point.toNat
      let part := digits.drop point.toNat
      whole ++ List.replicate (point.toNat - whole.length) '0' ++
        '.' :: (if part.isEmpty then ['0'] else part)
  else
    match digits with
    | [] => []
    | [d] => d :: exponentText 'e' (point - 1)
    | d :: rest => d :: '.' :: rest ++ exponentText 'e' (point - 1)

/-- A number as text. -/
def display : Binary64 → List Char
  | nan => "nan".toList
  | inf n => (if n then "-inf" else "inf").toList
  | finite n m e =>
    let body :=
      if m = 0 then "0.0".toList
      else
        let (digits, point) := shortest m e
        layOut digits point
    if n then '-' :: body else body

end LoopPainter.Binary64
