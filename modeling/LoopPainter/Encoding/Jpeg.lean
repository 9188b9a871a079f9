import LoopPainter.Bytes.Bits
import LoopPainter.Bytes.Order
import LoopPainter.Picture

/-!
# JPEG files

A picture is cut into blocks of eight by eight pixels, beyond its edge filled up with the
nearest pixel.  Each channel of a block is turned into 64 frequencies, which are rounded to
whole numbers and written in the order of their diagonals: the first as the difference to
that of the block before, the others as runs of zeros with the number that ends them.

Colors are split into brightness and two differences of color.  All code words of a kind
have the same length, so the code word of a symbol is its place in the list of symbols.
-/

namespace LoopPainter.Encoding.Jpeg

open Bytes

/-! ## Frequencies -/

/-- The side of a block. -/
def side : Nat := 8

/-- The weight of a place in a frequency. -/
def weight (frequency place : Nat) : Float :=
  let scale := if frequency = 0 then Float.sqrt 0.125 else 0.5
  scale * Float.cos (Float.ofNat ((2 * place + 1) * frequency) * 3.141592653589793 / 16)

/-- The weights of all places in all frequencies. -/
def weights : Array Float :=
  ((List.range side).flatMap fun u => (List.range side).map (weight u)).toArray

/-- The sum of a number for each place of a row or column. -/
def total (f : Nat → Float) : Float :=
  (List.range side).foldl (fun sum i => sum + f i) 0

/-- The frequencies of the columns of a block; with rows and columns exchanged. -/
def transformColumns (block : Array Float) : Array Float :=
  ((List.range side).flatMap fun x => (List.range side).map fun v =>
    total fun y => block.getD (y * side + x) 0 * weights.getD (v * side + y) 0).toArray

/-- The frequencies of a block. -/
def frequencies (block : Array Float) : Array Float :=
  transformColumns (transformColumns block)

/-- The places of a block in the order of its diagonals, with a turn at each edge. -/
def diagonals : List Nat :=
  (List.range (2 * side - 1)).flatMap fun s =>
    let rows := (List.range (s + 1)).filter fun y => y < side && s - y < side
    (if s % 2 = 0 then rows.reverse else rows).map fun y => y * side + (s - y)

/-- A number rounded to a whole one, no further from zero than `limit`. -/
def rounded (limit : Nat) (x : Float) : Int :=
  let n : Int := (min limit x.abs.round.toUInt32.toNat : Nat)
  if x < 0 then -n else n

/-- The whole frequencies of a block in the order of its diagonals. -/
def coefficients (block : Array Float) : List Int :=
  let found := frequencies block
  diagonals.map fun place => rounded 1023 (found.getD place 0)

/-! ## Channels -/

/-- A channel: the number of every pixel, row by row, less half of the range. -/
structure Channel where
  width : Nat
  height : Nat
  values : Array Float

/-- The block whose first pixel is in the given column and row. -/
def Channel.block (c : Channel) (left top : Nat) : Array Float :=
  ((List.range side).flatMap fun y => (List.range side).map fun x =>
    c.values.getD (min (top + y) (c.height - 1) * c.width + min (left + x) (c.width - 1)) 0).toArray

/-- A sum of the three numbers of a color, with weights. -/
def mix (r g b : Float) (c : Rgb) : Float :=
  r * c.red.toNat.toFloat + g * c.green.toNat.toFloat + b * c.blue.toNat.toFloat

/-- The channels of a picture. -/
def channels : Picture → List Channel
  | .gray r => [⟨r.width, r.height, r.pixels.map fun v => v.toNat.toFloat - 128⟩]
  | p =>
    let r := p.toRgb
    [⟨r.width, r.height, r.pixels.map fun c => mix 0.299 0.587 0.114 c - 128⟩,
      ⟨r.width, r.height, r.pixels.map (mix (-0.168735892) (-0.331264108) 0.5)⟩,
      ⟨r.width, r.height, r.pixels.map (mix 0.5 (-0.418687589) (-0.081312411))⟩]

/-! ## Code words -/

/-- The number of bits of a whole number. -/
def magnitude (i : Int) : Nat :=
  if i = 0 then 0 else i.natAbs.log2 + 1

/-- The bits that tell a whole number among those of its magnitude. -/
def amplitude (i : Int) : List Bool :=
  let n := magnitude i
  bits .highFirst n (if i < 0 then Nat.pow 2 n - 1 - i.natAbs else i.natAbs)

/-- The symbols of differences: their magnitudes. -/
def differenceSymbols : List Nat := List.range 12

/-- The symbols of the other frequencies: the end of a block, sixteen zeros, and a number of
zeros with the magnitude of the number behind them. -/
def runSymbols : List Nat :=
  0x00 :: 0xF0 :: (List.range 16).flatMap fun zeros =>
    (List.range' 1 10).map fun n => zeros * 16 + n

/-- The number of bits of a code word for a difference. -/
def differenceLength : Nat := 4

/-- The number of bits of a code word for a run. -/
def runLength : Nat := 8

/-- The code word of a symbol. -/
def codeWord (symbols : List Nat) (length symbol : Nat) : List Bool :=
  bits .highFirst length (symbols.idxOf symbol)

/-- The bits of a difference. -/
def differenceBits (i : Int) : List Bool :=
  codeWord differenceSymbols differenceLength (magnitude i) ++ amplitude i

/-- The bits of all frequencies but the first, behind a number of zeros. -/
def runBits (zeros : Nat) : List Int → List Bool
  | [] => if zeros = 0 then [] else codeWord runSymbols runLength 0x00
  | i :: rest =>
    if i = 0 then runBits (zeros + 1) rest
    else
      (List.replicate (zeros / 16) (codeWord runSymbols runLength 0xF0)).flatten ++
        codeWord runSymbols runLength (zeros % 16 * 16 + magnitude i) ++ amplitude i ++
        runBits 0 rest

/-- The bits of a block, and its first frequency; `last` is that of the block before. -/
def blockBits (last : Int) (block : Array Float) : List Bool × Int :=
  match coefficients block with
  | [] => ([], last)
  | first :: rest => (differenceBits (first - last) ++ runBits 0 rest, first)

/-- The bits of the blocks of all channels at one place. -/
def unitBits (left top : Nat) : List Channel → List Int → List Bool × List Int
  | c :: channels, last :: lasts =>
    let (front, first) := blockBits last (c.block left top)
    let (rest, firsts) := unitBits left top channels lasts
    (front ++ rest, first :: firsts)
  | _, _ => ([], [])

/-- The number of blocks beside one another. -/
def blockCount (pixels : Nat) : Nat :=
  (pixels + side - 1) / side

/-- The bytes of all blocks.  A byte with all bits set is followed by zero. -/
def scanBytes (p : Picture) : List UInt8 :=
  let all := channels p
  let places := (List.range (blockCount p.height)).flatMap fun y =>
    (List.range (blockCount p.width)).map fun x => (x * side, y * side)
  let (units, _) := places.foldl (fun (units, lasts) (left, top) =>
    let (unit, lasts) := unitBits left top all lasts
    (unit :: units, lasts)) (([] : List (List Bool)), all.map fun _ => (0 : Int))
  (pack .highFirst true units.reverse.flatten).flatMap fun b => if b = 0xFF then [b, 0] else [b]

/-! ## The file -/

/-- A segment with its mark and its length, which counts its own two bytes. -/
def segment (mark : UInt8) (data : List UInt8) : List UInt8 :=
  [0xFF, mark] ++ highFirst 2 (data.length + 2) ++ data

/-- A table of code words that all have one length. -/
def codeTable (name : UInt8) (length : Nat) (symbols : List Nat) : List UInt8 :=
  let counts := (List.range' 1 16).map fun n => if n = length then symbols.length else 0
  segment 0xC4 (name :: (counts ++ symbols).map UInt8.ofNat)

/-- The numbers of the channels. -/
def channelNumbers (p : Picture) : List UInt8 :=
  (List.range (channels p).length).map fun i => UInt8.ofNat (i + 1)

/-- The segment that tells the size and the channels. -/
def frameHeader (p : Picture) : List UInt8 :=
  let numbers := channelNumbers p
  segment 0xC0 ([8] ++ highFirst 2 p.height ++ highFirst 2 p.width ++
    [UInt8.ofNat numbers.length] ++ numbers.flatMap fun n => [n, 0x11, 0])

/-- The segment before the blocks. -/
def scanHeader (p : Picture) : List UInt8 :=
  let numbers := channelNumbers p
  segment 0xDA (UInt8.ofNat numbers.length :: (numbers.flatMap fun n => [n, 0]) ++ [0, 63, 0])

/-- The bytes of a file. -/
def encode (p : Picture) : List UInt8 :=
  [0xFF, 0xD8] ++ segment 0xE0 (ofAscii "JFIF" ++ [0, 1, 1, 0, 0, 1, 0, 1, 0, 0]) ++
    segment 0xDB (0 :: List.replicate (side * side) 1) ++ frameHeader p ++
    codeTable 0x00 differenceLength differenceSymbols ++
    codeTable 0x10 runLength runSymbols ++ scanHeader p ++ scanBytes p ++ [0xFF, 0xD9]

end LoopPainter.Encoding.Jpeg
