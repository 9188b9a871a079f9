import LoopPainter.Bytes.Order
import LoopPainter.Picture

/-!
# TIFF files

A file is a header, the pixels in one strip without compression, and a directory of fields
that describe them.  A field holds its value itself if that fits into four bytes, and the
place of the value in the file otherwise.
-/

namespace LoopPainter.Encoding.Tiff

open Bytes

/-- The number of bytes of a pixel. -/
def channels : Picture → Nat
  | .gray _ => 1
  | .grayAlpha _ => 2
  | .rgb _ => 3
  | .rgba _ => 4

/-- Whether the pixels have an opacity. -/
def hasOpacity : Picture → Bool
  | .gray _ | .rgb _ => false
  | .grayAlpha _ | .rgba _ => true

/-- A field with one number. -/
def number (tag n : Nat) : List UInt8 :=
  lowFirst 2 tag ++ lowFirst 2 4 ++ lowFirst 4 1 ++ lowFirst 4 n

/-- The field with the number of bits of each channel; it is eight for all of them. -/
def channelBits (channels place : Nat) : List UInt8 :=
  lowFirst 2 258 ++ lowFirst 2 3 ++ lowFirst 4 channels ++
    (if channels = 1 then lowFirst 4 8
     else if channels = 2 then lowFirst 2 8 ++ lowFirst 2 8
     else lowFirst 4 place)

/-- The place of the first byte of the pixels. -/
def start : Nat := 8

/-- The fields of a picture whose channel sizes, if they need a place, stand at `place`. -/
def fields (p : Picture) (length place : Nat) : List (List UInt8) :=
  [number 256 p.width, number 257 p.height, channelBits (channels p) place, number 259 1,
    number 262 (if channels p ≤ 2 then 1 else 2), number 273 start, number 277 (channels p),
    number 278 p.height, number 279 length] ++
    (if hasOpacity p then [number 338 2] else [])

/-- The bytes of a file. -/
def encode (p : Picture) : List UInt8 :=
  let data := p.rowBytes.flatten
  let data := if data.length % 2 = 1 then data ++ [0] else data
  let place := start + data.length
  let sizes := (List.replicate (channels p) (lowFirst 2 8)).flatten
  let list := fields p (p.width * p.height * channels p) place
  ofAscii "II" ++ lowFirst 2 42 ++ lowFirst 4 (place + sizes.length) ++ data ++ sizes ++
    lowFirst 2 list.length ++ list.flatten ++ lowFirst 4 0

end LoopPainter.Encoding.Tiff
