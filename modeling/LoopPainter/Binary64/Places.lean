import LoopPainter.Binary64.Shortest

/-!
# Numbers with a given number of places

The three layouts of a formatted number: a fixed count of decimal places, a
fixed count of digits with an exponent, and the general layout, which chooses
between the two by the size of the exponent and drops trailing zeros.  Each
rounds the exact value of the number once, to the nearest decimal with ties to
even.
-/

namespace LoopPainter.Binary64

/-- Put a point before the last `places` digits; `always` keeps a point with nothing
after it. -/
def withPoint (always : Bool) (places : Nat) (digits : List Char) : List Char :=
  let digits := List.replicate (places + 1 - digits.length) '0' ++ digits
  let whole := digits.take (digits.length - places)
  let part := digits.drop (digits.length - places)
  if part.isEmpty then (if always then whole ++ ['.'] else whole) else whole ++ '.' :: part

/-- The fraction `num / den` with a fixed number of decimal places. -/
def fixedPlaces (always : Bool) (places num den : Nat) : List Char :=
  withPoint always places (Text.decimal (roundQuotient (num * Nat.pow 10 places) den))

/-- The fraction rounded to `count` significant digits, and its decimal exponent. -/
def significantDigits (count num den : Nat) : List Char × Int :=
  if num = 0 then (List.replicate count '0', 0)
  else
    let point := pointPosition num den
    let shift := (count : Int) - point
    let digits := Text.decimal
      (roundQuotient (num * Nat.pow 10 shift.toNat) (den * Nat.pow 10 (-shift).toNat))
    (digits.take count, point - 1 + (digits.length - count : Nat))

/-- The fraction with one digit before the point, `places` after it, and an exponent. -/
def exponentPlaces (always : Bool) (letter : Char) (places num den : Nat) : List Char :=
  let (digits, e) := significantDigits (places + 1) num den
  withPoint always places digits ++ exponentText letter e

/-- Drop the zeros that end the part after the point, and then a bare point. -/
def trimPlaces (s : List Char) : List Char :=
  if s.contains '.' then
    match dropTrailingZeros s |>.reverse with
    | '.' :: rest => rest.reverse
    | rest => rest.reverse
  else s

/-- The general layout with `count` significant digits. -/
def generalPlaces (always : Bool) (letter : Char) (count num den : Nat) : List Char :=
  let count := max count 1
  let (digits, e) := significantDigits count num den
  let trim := if always then id else trimPlaces
  if -4 ≤ e && e < count then
    let places := ((count : Int) - 1 - e).toNat
    let digits := List.replicate (places + 1 - digits.length) '0' ++ digits
    trim (withPoint always places digits)
  else
    trim (withPoint always (count - 1) digits) ++ exponentText letter e

end LoopPainter.Binary64
