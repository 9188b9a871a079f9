import LoopPainter.Canvas

/-!
# Rasters

A raster is a grid of pixels of any kind, stored row by row.  A canvas becomes a
raster by looking every cell up in the palette.
-/

namespace LoopPainter

/-- A grid of pixels. -/
structure Raster (π : Type) where
  width : Nat
  height : Nat
  pixels : Array π
  size_pixels : pixels.size = width * height
  deriving DecidableEq

namespace Raster

/-- Apply a function to every pixel. -/
def map {π ρ : Type} (f : π → ρ) (r : Raster π) : Raster ρ where
  width := r.width
  height := r.height
  pixels := r.pixels.map f
  size_pixels := by rw [Array.size_map, r.size_pixels]

/-- The rows of pixels, the topmost first. -/
def rows {π : Type} (r : Raster π) : List (List π) :=
  (List.range r.height).map fun y =>
    (r.pixels.extract (y * r.width) (y * r.width + r.width)).toList

end Raster

namespace Canvas

/-- The canvas in palette colors, with opacity. -/
def toRgba (c : Canvas) : Raster Rgba where
  width := c.width
  height := c.height
  pixels := c.cells.map Color.rgba
  size_pixels := by rw [Array.size_map, c.size_cells]

/-- The canvas in palette colors. -/
def toRgb (c : Canvas) : Raster Rgb :=
  c.toRgba.map Rgba.dropAlpha

end Canvas

end LoopPainter
