import LoopPainter.Picture
import LoopPainter.Path

/-!
# Image files

What an image file holds when it is read back, and which pictures each format can
hold.  The format follows from the file's suffix or is named outright.

* PNG and TIFF hold every kind of picture.
* BMP holds no gray pictures with opacity, and drops the opacity of colors.
* JPEG and PCX hold neither kind of opacity.
* GIF holds a sequence of frames.  Neighboring frames that are equal are written as
  one, which is shown for the sum of their times; a time is stored as a 16-bit
  number of hundredths of a second, cut and not rounded.

That there are no other formats is an assumption.  Writers of images know more of them, such
as WebP, TGA and PPM, whose suffixes count as unknown here.
-/

namespace LoopPainter

/-- An image file format.  Only these are taken to exist. -/
inductive ImageFormat where
  | png
  | gif
  | jpeg
  | bmp
  | tiff
  | pcx
  deriving DecidableEq, Repr

namespace ImageFormat

/-- All formats. -/
def all : List ImageFormat :=
  [png, gif, jpeg, bmp, tiff, pcx]

/-- The name of a format. -/
def name : ImageFormat → String
  | png => "PNG"
  | gif => "GIF"
  | jpeg => "JPEG"
  | bmp => "BMP"
  | tiff => "TIFF"
  | pcx => "PCX"

/-- The file suffixes of a format. -/
def suffixes : ImageFormat → List String
  | png => [".png", ".apng"]
  | gif => [".gif"]
  | jpeg => [".jpg", ".jpeg", ".jpe", ".jfif"]
  | bmp => [".bmp"]
  | tiff => [".tif", ".tiff"]
  | pcx => [".pcx"]

/-- The format with a suffix, which is given in lower case. -/
def ofSuffix? (suffix : String) : Option ImageFormat :=
  all.find? fun f => f.suffixes.contains suffix

/-- The format with a name, in any letter case. -/
def ofName? (name : String) : Option ImageFormat :=
  all.find? fun f => f.name == Text.upperString name

/-- The formats that hold more than one picture. -/
def holdsMany : ImageFormat → Bool
  | png | gif | tiff => true
  | jpeg | bmp | pcx => false

end ImageFormat

/-- One picture of an animation and how long it is shown, in milliseconds. -/
structure GifFrame where
  duration : Nat
  picture : Raster Rgb
  deriving DecidableEq

/-- What an image file holds when it is read back. -/
inductive ImageFile where
  | still (format : ImageFormat) (picture : Picture)
  | animation (loop : Option Nat) (frames : List GifFrame)
  deriving DecidableEq

/-- What a writer is told besides the pictures. -/
structure ImageOptions where
  format : Option String := none
  duration : Option Int := none
  loop : Option Int := none
  deriving DecidableEq, Repr

/-- Why an image could not be written. -/
inductive ImageFault where
  | unknownSuffix
  | unknownFormat
  | singlePictureFormat
  | unsupportedMode (format : ImageFormat)
  | numberOutOfRange
  | overflow
  deriving DecidableEq, Repr

namespace ImageFile

/-- The format of a file at a path, unless the options name one. -/
def formatFor (options : ImageOptions) (path : Path) : Except ImageFault ImageFormat :=
  match options.format with
  | some name =>
    match ImageFormat.ofName? name with
    | some f => .ok f
    | none => .error .unknownFormat
  | none =>
    match ImageFormat.ofSuffix? path.lowerSuffix with
    | some f => .ok f
    | none => .error .unknownSuffix

/-- The picture that a still format holds of a given one. -/
def stillPicture (format : ImageFormat) (picture : Picture) : Except ImageFault Picture :=
  match format, picture with
  | .bmp, .grayAlpha _ => .error (.unsupportedMode .bmp)
  | .bmp, .rgba r => .ok (.rgb (r.map Rgba.dropAlpha))
  | .jpeg, .grayAlpha _ | .jpeg, .rgba _ => .error (.unsupportedMode .jpeg)
  | .pcx, .grayAlpha _ | .pcx, .rgba _ => .error (.unsupportedMode .pcx)
  | _, picture => .ok picture

/-! ## Animations -/

/-- Neighboring frames that are equal, with the sum of their times. -/
def mergeFrames : List (Int × Raster Rgb) → List (Int × Raster Rgb)
  | [] => []
  | (t, r) :: rest =>
    match mergeFrames rest with
    | [] => [(t, r)]
    | (t', r') :: merged => if r = r' then (t + t', r) :: merged else (t, r) :: (t', r') :: merged

/-- The largest number that a 16-bit field holds. -/
def maxField : Nat := 65535

/-- A number that is stored in a 16-bit field. -/
def field (i : Int) : Except ImageFault Nat :=
  if 0 ≤ i ∧ i ≤ maxField then .ok i.toNat else .error .numberOutOfRange

/-- Milliseconds as whole hundredths of a second, cut toward zero.  A quotient beyond the
range of double precision has no value at all. -/
def hundredths (ms : Int) : Except ImageFault Int :=
  match Binary64.ofFraction (ms < 0) ms.natAbs 10 with
  | .finite .. => .ok (ms.tdiv 10)
  | _ => .error .overflow

/-- A frame as it is stored. -/
def storeFrame : Int × Raster Rgb → Except ImageFault GifFrame
  | (ms, r) => do
    let delay ← field (← hundredths ms)
    return ⟨delay * 10, r⟩

/-- The animation of pictures that are each shown for the same time. -/
def animate (options : ImageOptions) (pictures : List Picture) : Except ImageFault ImageFile := do
  let time := options.duration.getD 0
  let loop ← options.loop.mapM field
  let frames ← (mergeFrames (pictures.map fun p => (time, p.toRgb))).mapM storeFrame
  return .animation loop frames

/-- The file that a format makes of a picture and those that follow it. -/
def encode (format : ImageFormat) (options : ImageOptions) (first : Picture)
    (rest : List Picture) : Except ImageFault ImageFile :=
  if !rest.isEmpty && !format.holdsMany then .error .singlePictureFormat
  else
    match format with
    | .gif => animate options (first :: rest)
    | format => (stillPicture format first).map (.still format)

end ImageFile

end LoopPainter
