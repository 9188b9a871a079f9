/-!
# Numbers as bytes

A number is written in a fixed count of bytes, with its lowest or its highest byte first.
What does not fit is cut off at the high end.
-/

namespace LoopPainter.Bytes

/-- The bytes of a number, lowest first. -/
def lowFirst : (count : Nat) → (n : Nat) → List UInt8
  | 0, _ => []
  | count + 1, n => UInt8.ofNat n :: lowFirst count (n / 256)

/-- The bytes of a number, highest first. -/
def highFirst (count n : Nat) : List UInt8 :=
  (lowFirst count n).reverse

/-- The bytes of an ASCII text. -/
def ofAscii (s : String) : List UInt8 :=
  s.toList.map fun c => UInt8.ofNat c.toNat

end LoopPainter.Bytes
