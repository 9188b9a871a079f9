import LoopPainter.Binary64
import LoopPainter.Raster

/-!
# Pictures

A picture is a raster of one of four kinds of pixel.  `Samples` are the numbers of
an array together with its shape; `toPicture` takes them for a picture: rows of
gray values, or of one to four channels, and a single column if there is only one
dimension.  Samples of other types than bytes are first limited to the range of a
byte and cut to whole numbers.
-/

namespace LoopPainter

/-- A raster of gray, gray with opacity, colored, or colored pixels with opacity. -/
inductive Picture where
  | gray (raster : Raster UInt8)
  | grayAlpha (raster : Raster (UInt8 × UInt8))
  | rgb (raster : Raster Rgb)
  | rgba (raster : Raster Rgba)
  deriving DecidableEq

namespace Picture

/-- The short name of the kind of pixel. -/
def mode : Picture → String
  | gray _ => "L"
  | grayAlpha _ => "LA"
  | rgb _ => "RGB"
  | rgba _ => "RGBA"

/-- The number of columns. -/
def width : Picture → Nat
  | gray r => r.width
  | grayAlpha r => r.width
  | rgb r => r.width
  | rgba r => r.width

/-- The number of rows. -/
def height : Picture → Nat
  | gray r => r.height
  | grayAlpha r => r.height
  | rgb r => r.height
  | rgba r => r.height

/-- The bytes of each pixel, row by row. -/
def pixelBytes : Picture → List (List UInt8)
  | gray r => r.pixels.toList.map fun v => [v]
  | grayAlpha r => r.pixels.toList.map fun (v, a) => [v, a]
  | rgb r => r.pixels.toList.map fun p => [p.red, p.green, p.blue]
  | rgba r => r.pixels.toList.map fun p => [p.red, p.green, p.blue, p.alpha]

/-- The bytes of each row, the topmost first. -/
def rowBytes : Picture → List (List UInt8)
  | gray r => r.rows
  | grayAlpha r => r.rows.map fun row => row.flatMap fun (v, a) => [v, a]
  | rgb r => r.rows.map fun row => row.flatMap fun p => [p.red, p.green, p.blue]
  | rgba r => r.rows.map fun row => row.flatMap fun p => [p.red, p.green, p.blue, p.alpha]

/-- The picture in color, without opacity. -/
def toRgb : Picture → Raster Rgb
  | gray r => r.map fun v => ⟨v, v, v⟩
  | grayAlpha r => r.map fun (v, _) => ⟨v, v, v⟩
  | rgb r => r
  | rgba r => r.map Rgba.dropAlpha

end Picture

/-! ## Samples -/

/-- Numbers with the shape of the array that they fill, row by row. -/
structure Samples where
  shape : List Nat
  values : List UInt8

namespace Samples

/-- A whole number limited to the range of a byte. -/
def clampInt (i : Int) : UInt8 :=
  UInt8.ofNat (min i.toNat 255)

/-- A floating-point number limited to the range of a byte, without its fraction; a
not-a-number counts as zero. -/
def clampFloat (x : Binary64) : UInt8 :=
  match x with
  | .nan => 0
  | .inf negative => if negative then 0 else 255
  | x => clampInt (x.truncate?.getD 0)

/-- A raster of `width` columns from pixels that fill `height` rows. -/
def raster? {π : Type} (width height : Nat) (pixels : List π) : Option (Raster π) :=
  if h : pixels.length = width * height then
    some ⟨width, height, pixels.toArray, by simpa using h⟩
  else none

/-- Group values in twos. -/
def pairs : List UInt8 → List (UInt8 × UInt8)
  | a :: b :: rest => (a, b) :: pairs rest
  | _ => []

/-- Group values in threes. -/
def triples : List UInt8 → List Rgb
  | a :: b :: c :: rest => ⟨a, b, c⟩ :: triples rest
  | _ => []

/-- Group values in fours. -/
def quadruples : List UInt8 → List Rgba
  | a :: b :: c :: d :: rest => ⟨a, b, c, d⟩ :: quadruples rest
  | _ => []

/-- The picture that the samples show, if their shape is one of a picture. -/
def toPicture? (s : Samples) : Option Picture :=
  match s.shape with
  | [h] => (raster? 1 h s.values).map .gray
  | [h, w] => (raster? w h s.values).map .gray
  | [h, w, 1] => (raster? w h s.values).map .gray
  | [h, w, 2] => (raster? w h (pairs s.values)).map .grayAlpha
  | [h, w, 3] => (raster? w h (triples s.values)).map .rgb
  | [h, w, 4] => (raster? w h (quadruples s.values)).map .rgba
  | _ => none

end Samples

end LoopPainter
