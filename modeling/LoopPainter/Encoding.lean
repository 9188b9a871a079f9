import LoopPainter.Encoding.Bmp
import LoopPainter.Encoding.Gif
import LoopPainter.Encoding.Jpeg
import LoopPainter.Encoding.Pcx
import LoopPainter.Encoding.Png
import LoopPainter.Encoding.Tiff
import LoopPainter.Store

/-!
# Image files as bytes

Every image file has bytes that show what it holds.
-/

namespace LoopPainter

/-- The bytes of an image file. -/
def ImageFile.bytes : ImageFile → List UInt8
  | .animation loop frames => Encoding.Gif.encode loop frames
  | .still format picture =>
    match format with
    | .png => Encoding.Png.encode picture
    | .gif => Encoding.Gif.encode none [⟨0, picture.toRgb⟩]
    | .jpeg => Encoding.Jpeg.encode picture
    | .bmp => Encoding.Bmp.encode picture
    | .tiff => Encoding.Tiff.encode picture
    | .pcx => Encoding.Pcx.encode picture

/-- The bytes of a file. -/
def Content.data : Content → ByteArray
  | .bytes data => data
  | .image file => ⟨file.bytes.toArray⟩

end LoopPainter
