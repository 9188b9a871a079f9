import LoopPainter.Bytes.Order
import LoopPainter.Picture

/-!
# BMP files

A file is a header and the rows of the picture from the bottom to the top, each filled up to
a multiple of four bytes.  Gray pictures have one byte for a pixel and a table of all grays;
all other pictures have three bytes for a pixel, blue first.
-/

namespace LoopPainter.Encoding.Bmp

open Bytes

/-- The bytes of a row, filled up. -/
def padded (row : List UInt8) : List UInt8 :=
  row ++ List.replicate ((4 - row.length % 4) % 4) 0

/-- The rows, the topmost first. -/
def rows : Picture → List (List UInt8)
  | .gray r => r.rows
  | p => p.toRgb.rows.map fun row => row.flatMap fun c => [c.blue, c.green, c.red]

/-- The table of all grays, which only gray pictures have. -/
def table : Picture → List UInt8
  | .gray _ => (List.range 256).flatMap fun v => List.replicate 3 (UInt8.ofNat v) ++ [0]
  | _ => []

/-- The number of bits of a pixel. -/
def pixelBits : Picture → Nat
  | .gray _ => 8
  | _ => 24

/-- The bytes of a file. -/
def encode (p : Picture) : List UInt8 :=
  let data := ((rows p).map padded).reverse.flatten
  let start := 54 + (table p).length
  ofAscii "BM" ++ lowFirst 4 (start + data.length) ++ lowFirst 4 0 ++ lowFirst 4 start ++
    lowFirst 4 40 ++ lowFirst 4 p.width ++ lowFirst 4 p.height ++ lowFirst 2 1 ++
    lowFirst 2 (pixelBits p) ++ lowFirst 4 0 ++ lowFirst 4 data.length ++
    lowFirst 4 3780 ++ lowFirst 4 3780 ++ lowFirst 4 ((table p).length / 4) ++ lowFirst 4 0 ++
    table p ++ data

end LoopPainter.Encoding.Bmp
