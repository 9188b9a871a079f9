import LoopPainter.Bytes.Checksum
import LoopPainter.Bytes.Order
import LoopPainter.Picture

/-!
# PNG files

A file is a signature and a sequence of chunks, each with its length, its name and a
checksum.  The rows of the picture are written without filters, in blocks that are stored
and not compressed.
-/

namespace LoopPainter.Encoding.Png

open Bytes

/-- The bytes that a file starts with. -/
def signature : List UInt8 := [0x89, 0x50, 0x4E, 0x47, 0x0D, 0x0A, 0x1A, 0x0A]

/-- A chunk. -/
def chunk (name : String) (data : List UInt8) : List UInt8 :=
  let body := ofAscii name ++ data
  highFirst 4 data.length ++ body ++ highFirst 4 (redundancyCheck body).toNat

/-- The number that stands for a kind of pixel. -/
def pixelKind : Picture → UInt8
  | .gray _ => 0
  | .grayAlpha _ => 4
  | .rgb _ => 2
  | .rgba _ => 6

/-- The chunk that tells the size and the kind of pixel. -/
def headerChunk (p : Picture) : List UInt8 :=
  chunk "IHDR" (highFirst 4 p.width ++ highFirst 4 p.height ++ [8, pixelKind p, 0, 0, 0])

/-- The largest number of bytes in a stored block. -/
def blockSize : Nat := 65535

/-- The start of a stored block, with its length and the complement of it. -/
def blockHead (last : Bool) (length : Nat) : List UInt8 :=
  (if last then 1 else 0) :: lowFirst 2 length ++ lowFirst 2 (blockSize - length)

/-- Bytes in stored blocks; at least one block is written. -/
def storedBlocks (data : Array UInt8) : List UInt8 :=
  let count := (data.size - 1) / blockSize + 1
  (List.range count).flatMap fun i =>
    let block := data.extract (i * blockSize) (i * blockSize + blockSize)
    blockHead (i + 1 == count) block.size ++ block.toList

/-- A stream of stored blocks with its two bytes of header and its checksum. -/
def stream (data : List UInt8) : List UInt8 :=
  [0x78, 0x01] ++ storedBlocks data.toArray ++ highFirst 4 (halvesSum data)

/-- The bytes of a file. -/
def encode (p : Picture) : List UInt8 :=
  signature ++ headerChunk p ++ chunk "IDAT" (stream (p.rowBytes.flatMap (0 :: ·))) ++
    chunk "IEND" []

end LoopPainter.Encoding.Png
