import LoopPainter.Bytes.Order
import LoopPainter.Picture

/-!
# PCX files

A file is a header of 128 bytes and the rows of the picture, one plane of a row behind the
other.  A run of equal bytes is written as its length with the two highest bits set,
followed by the byte; a byte that has these bits set is itself written as a run.  Gray
pictures have one plane, and a table of all grays at the end.
-/

namespace LoopPainter.Encoding.Pcx

open Bytes

/-- The longest run. -/
def maxRun : Nat := 63

/-- A run of equal bytes. -/
def run (count : Nat) (b : UInt8) : List UInt8 :=
  if count = 1 ∧ b < 0xC0 then [b] else [0xC0 ||| UInt8.ofNat count, b]

/-- Put a byte before runs. -/
def addToRuns (b : UInt8) : List (Nat × UInt8) → List (Nat × UInt8)
  | [] => [(1, b)]
  | (count, c) :: rest =>
    if b = c ∧ count < maxRun then (count + 1, c) :: rest else (1, b) :: (count, c) :: rest

/-- A plane of a row in runs, filled up to an even number of bytes. -/
def packed (plane : List UInt8) : List UInt8 :=
  let plane := if plane.length % 2 = 1 then plane ++ [0] else plane
  (plane.foldr addToRuns []).flatMap fun (count, b) => run count b

/-- The planes of each row. -/
def planes : Picture → List (List (List UInt8))
  | .gray r => r.rows.map fun row => [row]
  | p => p.toRgb.rows.map fun row =>
    [row.map fun c => c.red, row.map fun c => c.green, row.map fun c => c.blue]

/-- The number of planes. -/
def planeCount : Picture → Nat
  | .gray _ => 1
  | _ => 3

/-- The table of all grays, which only gray pictures have. -/
def table : Picture → List UInt8
  | .gray _ => 12 :: (List.range 256).flatMap fun v => List.replicate 3 (UInt8.ofNat v)
  | _ => []

/-- The header. -/
def header (p : Picture) : List UInt8 :=
  [10, 5, 1, 8] ++ lowFirst 2 0 ++ lowFirst 2 0 ++ lowFirst 2 (p.width - 1) ++
    lowFirst 2 (p.height - 1) ++ lowFirst 2 100 ++ lowFirst 2 100 ++ List.replicate 48 0 ++
    [0, UInt8.ofNat (planeCount p)] ++ lowFirst 2 (p.width + p.width % 2) ++ lowFirst 2 1 ++
    List.replicate 58 0

/-- The bytes of a file. -/
def encode (p : Picture) : List UInt8 :=
  header p ++ (planes p).flatMap (fun row => row.flatMap packed) ++ table p

end LoopPainter.Encoding.Pcx
