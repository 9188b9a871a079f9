import LoopPainter.Bytes.Bits
import LoopPainter.Bytes.Order
import LoopPainter.Picture.File

/-!
# GIF files

A file is a header, the number of repetitions, and for every frame its delay, its own table
of at most 256 colors, and the places of its pixels in that table.

The places are written as a stream of codes in which every code stands for one place: the
table of longer codes is thrown away again before the width of a code would grow.
-/

namespace LoopPainter.Encoding.Gif

open Bytes

/-! ## Colors -/

/-- The largest number of colors in a table. -/
def maxColors : Nat := 256

/-- The colors of a frame in the order in which they appear, as many as a table can hold. -/
def colors (r : Raster Rgb) : Array Rgb :=
  r.pixels.foldl
    (fun found c => if found.contains c || maxColors ≤ found.size then found else found.push c) #[]

/-- How far two numbers are apart, squared. -/
def gap (a b : UInt8) : Nat :=
  let d := ((a.toNat : Int) - b.toNat).natAbs
  d * d

/-- How far two colors are apart, squared. -/
def distance (a b : Rgb) : Nat :=
  gap a.red b.red + gap a.green b.green + gap a.blue b.blue

/-- The place of the nearest color of a table, the first of several. -/
def nearest (table : Array Rgb) (c : Rgb) : Nat :=
  match table.findIdx? (· = c) with
  | some i => i
  | none =>
    (List.range table.size).foldl (fun best i =>
      if (table[i]?.elim 0 (distance c)) < (table[best]?.elim 0 (distance c)) then i
      else best) 0

/-- The least width of a code that tells the colors of a table apart; it is never below
two bits. -/
def codeWidth (colors : Nat) : Nat :=
  ((List.range' 2 7).find? (colors ≤ Nat.pow 2 ·)).getD 8

/-- A table filled up with black to a power of two. -/
def tableBytes (table : Array Rgb) : List UInt8 :=
  table.toList.flatMap (fun c => [c.red, c.green, c.blue]) ++
    List.replicate (3 * (Nat.pow 2 (codeWidth table.size) - table.size)) 0

/-! ## Codes -/

/-- The codes of the places of pixels.  The code that throws the table of longer codes away
comes before every run that would make it too large, and the one that ends the stream comes
last. -/
def codes (width : Nat) (places : List Nat) : List Nat :=
  let clear := Nat.pow 2 width
  let run := clear - 2
  (places.zipIdx.flatMap fun (place, i) => if i % run = 0 then [clear, place] else [place]) ++
    [clear + 1]

/-- Bytes in blocks of at most 255, each behind its length, with an empty block at the end. -/
def blocks (data : Array UInt8) : List UInt8 :=
  ((List.range ((data.size + 254) / 255)).flatMap fun i =>
    let block := data.extract (i * 255) (i * 255 + 255)
    UInt8.ofNat block.size :: block.toList) ++ [0]

/-- The pixels of a frame. -/
def pixelData (table : Array Rgb) (r : Raster Rgb) : List UInt8 :=
  let width := codeWidth table.size
  let stream := (codes width (r.pixels.toList.map (nearest table))).flatMap
    (bits .lowFirst (width + 1))
  UInt8.ofNat width :: blocks (pack .lowFirst false stream).toArray

/-! ## The file -/

/-- A frame with its delay, which is stored in hundredths of a second. -/
def frame (f : GifFrame) : List UInt8 :=
  let r := f.picture
  let table := colors r
  [0x21, 0xF9, 4, 0] ++ lowFirst 2 (f.duration / 10) ++ [0, 0] ++
    [0x2C] ++ lowFirst 2 0 ++ lowFirst 2 0 ++ lowFirst 2 r.width ++ lowFirst 2 r.height ++
    [0x80 ||| UInt8.ofNat (codeWidth table.size - 1)] ++ tableBytes table ++ pixelData table r

/-- The number of repetitions, zero for no end. -/
def repetitions (n : Nat) : List UInt8 :=
  [0x21, 0xFF, 11] ++ ofAscii "NETSCAPE2.0" ++ [3, 1] ++ lowFirst 2 n ++ [0]

/-- The bytes of a file; the first frame gives its size. -/
def encode (loop : Option Nat) (frames : List GifFrame) : List UInt8 :=
  let size : Nat × Nat := frames.head?.elim (0, 0) fun f => (f.picture.width, f.picture.height)
  ofAscii "GIF89a" ++ lowFirst 2 size.1 ++ lowFirst 2 size.2 ++ [0, 0, 0] ++
    loop.elim [] repetitions ++ frames.flatMap frame ++ [0x3B]

end LoopPainter.Encoding.Gif
