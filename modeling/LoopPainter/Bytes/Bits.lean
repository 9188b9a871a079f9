/-!
# Bits in bytes

Numbers of any width are written one behind the other without gaps.  A byte is filled
either from its lowest bit or from its highest bit, and a number is written in the same
direction.  The last byte is filled up with one and the same bit.
-/

namespace LoopPainter.Bytes

/-- From which end bytes are filled. -/
inductive BitOrder where
  | lowFirst
  | highFirst
  deriving DecidableEq, Repr

/-- The bits of a number, lowest first. -/
def lowBits : (width : Nat) → (n : Nat) → List Bool
  | 0, _ => []
  | width + 1, n => (n % 2 == 1) :: lowBits width (n / 2)

/-- The bits of a number in a bit order. -/
def bits (order : BitOrder) (width n : Nat) : List Bool :=
  match order with
  | .lowFirst => lowBits width n
  | .highFirst => (lowBits width n).reverse

/-- Bytes that are full and the bits of one that is not. -/
structure Filling where
  full : ByteArray := ByteArray.empty
  /-- The value of the bits so far. -/
  held : Nat := 0
  /-- The number of the bits so far. -/
  count : Nat := 0

/-- Add a bit. -/
def Filling.push (order : BitOrder) (f : Filling) (bit : Bool) : Filling :=
  let one := if bit then 1 else 0
  let held :=
    match order with
    | .lowFirst => f.held + one * Nat.pow 2 f.count
    | .highFirst => f.held * 2 + one
  if f.count = 7 then ⟨f.full.push (UInt8.ofNat held), 0, 0⟩ else ⟨f.full, held, f.count + 1⟩

/-- Bits packed into bytes, the last of which is filled up with the bit `rest`. -/
def pack (order : BitOrder) (rest : Bool) (data : List Bool) : List UInt8 :=
  let f := data.foldl (Filling.push order) {}
  let f := if f.count = 0 then f
    else (List.replicate (8 - f.count) rest).foldl (Filling.push order) f
  f.full.toList

end LoopPainter.Bytes
