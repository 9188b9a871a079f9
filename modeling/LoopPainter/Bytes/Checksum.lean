/-!
# Checksums

The cyclic redundancy check of 32 bits, with the polynomial `0xEDB88320` in reversed bit
order, and the sum of two halves modulo 65521, the largest prime below `2 ^ 16`.
-/

namespace LoopPainter.Bytes

/-- Take one bit off the remainder of a cyclic redundancy check. -/
def checkBit (c : UInt32) : UInt32 :=
  if c &&& 1 == 1 then (c >>> 1) ^^^ 0xEDB88320 else c >>> 1

/-- Take a byte into the remainder of a cyclic redundancy check. -/
def checkByte (c : UInt32) (b : UInt8) : UInt32 :=
  Nat.repeat checkBit 8 (c ^^^ b.toUInt32)

/-- The cyclic redundancy check of some bytes. -/
def redundancyCheck (data : List UInt8) : UInt32 :=
  data.foldl checkByte 0xFFFFFFFF ^^^ 0xFFFFFFFF

/-- The modulus of both halves of the sum. -/
def sumModulus : Nat := 65521

/-- The sum of some bytes in the low half, and the sum of all such sums in the high half. -/
def halvesSum (data : List UInt8) : Nat :=
  let (low, high) := data.foldl (fun (low, high) b =>
    let low := (low + b.toNat) % sumModulus
    (low, (high + low) % sumModulus)) (1, 0)
  high * 65536 + low

end LoopPainter.Bytes
