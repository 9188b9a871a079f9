import LoopPainter.Proofs.ReadOuts
import LoopPainter.Raster

/-!
# The palette loses nothing

A canvas is exported as rows of pixels, each pixel a list of bytes (`rgbaArray`, `rgbArray`).  The
arrays are those that a lookup of the ordinals in the table of pixels gives, the second with only
the first three bytes of every pixel (`exported`).

No two colors have the same red, green and blue, so a pixel without its opacity still tells its
color (`Color.ofBytes?`), and all pixels together tell the canvas (`ofArray?_rgbArray`).
-/

namespace LoopPainter

/-! ## Pixels -/

/-- The bytes of a pixel. -/
def Rgb.bytes (p : Rgb) : List UInt8 :=
  [p.red, p.green, p.blue]

/-- The bytes of a pixel with opacity. -/
def Rgba.bytes (p : Rgba) : List UInt8 :=
  [p.red, p.green, p.blue, p.alpha]

namespace Color

/-- The pixels of the colors in the order of their ordinals. -/
def table : List (List UInt8) :=
  (Vocabulary.members Color).map fun color => color.rgba.bytes

/-- The color with a pixel. -/
def ofBytes? (pixel : List UInt8) : Option Color :=
  (Vocabulary.members Color).find? fun color => color.rgb.bytes == pixel

theorem getD_table (color : Color) :
    table.getD (Vocabulary.ordinal color).val [] = color.rgba.bytes := by
  cases color <;> rfl

theorem ofBytes?_bytes (color : Color) : ofBytes? color.rgb.bytes = some color := by
  cases color <;> rfl

theorem bytes_inj {color other : Color} : color.rgb.bytes = other.rgb.bytes ↔ color = other := by
  constructor
  · intro h
    have hsome := ofBytes?_bytes color
    rw [h, ofBytes?_bytes] at hsome
    exact (Option.some.inj hsome).symm
  · rintro rfl
    rfl

theorem mapM_ofBytes? (colors : List Color) :
    (colors.map fun color => color.rgb.bytes).mapM ofBytes? = some colors := by
  induction colors with
  | nil => rfl
  | cons color colors ih =>
      rw [List.map_cons, List.mapM_cons, ofBytes?_bytes, ih]
      rfl

end Color

theorem Raster.rows_eq_linesOf {π : Type} (r : Raster π) :
    r.rows = Canvas.linesOf r.width r.height r.pixels.toList := by
  have hlength : r.rows.length = r.height := by
    rw [rows, List.length_map, List.length_range]
  apply List.ext_getElem?
  intro y
  by_cases hy : y < r.height
  · rw [Canvas.getElem?_linesOf hy, rows, List.getElem?_map, List.getElem?_range hy]
    simp only [Option.map_some, Array.toList_extract, List.extract_eq_take_drop,
      Nat.add_sub_cancel_left]
  · rw [List.getElem?_eq_none (by omega),
      List.getElem?_eq_none (by rw [Canvas.length_linesOf]; omega)]

namespace Canvas

variable {c d : Canvas}

/-! ## Arrays -/

/-- Rows of pixels, all rows of one length and all pixels of one number of bytes. -/
structure HasShape (rows : List (List (List UInt8))) (height width channels : ℕ) : Prop where
  length_rows : rows.length = height
  length_row : ∀ row ∈ rows, row.length = width
  length_pixel : ∀ row ∈ rows, ∀ pixel ∈ row, pixel.length = channels

/-- The rows of pixels of the canvas, with opacity. -/
def rgbaArray (c : Canvas) : List (List (List UInt8)) :=
  c.toRgba.rows.map (List.map Rgba.bytes)

/-- The rows of pixels of the canvas. -/
def rgbArray (c : Canvas) : List (List (List UInt8)) :=
  c.toRgb.rows.map (List.map Rgb.bytes)

theorem rgbaArray_eq_linesOf (c : Canvas) : c.rgbaArray =
    linesOf c.width c.height (c.toList.map fun color => color.rgba.bytes) := by
  have hpixels : c.toRgba.pixels.toList.map Rgba.bytes =
      c.toList.map fun color => color.rgba.bytes := by
    simp [toRgba, toList]
  rw [rgbaArray, Raster.rows_eq_linesOf, ← linesOf_map, hpixels]
  rfl

theorem rgbArray_eq_linesOf (c : Canvas) : c.rgbArray =
    linesOf c.width c.height (c.toList.map fun color => color.rgb.bytes) := by
  have hpixels : c.toRgb.pixels.toList.map Rgb.bytes =
      c.toList.map fun color => color.rgb.bytes := by
    simp [toRgb, toRgba, Raster.map, toList, Color.rgb]
  rw [rgbArray, Raster.rows_eq_linesOf, ← linesOf_map, hpixels]
  rfl

/-- A table of pixels of one size makes an array of that shape. -/
theorem hasShape_lookup {channels : ℕ} {f : Color → List UInt8}
    (hf : ∀ color, (f color).length = channels) (c : Canvas) :
    HasShape (linesOf c.width c.height (c.toList.map f)) c.height c.width channels where
  length_rows := length_linesOf _ _ _
  length_row _ := length_of_mem_linesOf ((List.length_map f).trans c.length_toList)
  length_pixel row hrow pixel hpixel := by
    rw [linesOf_map] at hrow
    obtain ⟨colors, -, rfl⟩ := List.mem_map.mp hrow
    obtain ⟨color, -, rfl⟩ := List.mem_map.mp hpixel
    exact hf color

/-- What the two arrays of a canvas show. -/
structure Exported (c : Canvas) : Prop where
  shape_rgba : HasShape c.rgbaArray c.height c.width 4
  shape_rgb : HasShape c.rgbArray c.height c.width 3
  lookup : c.rgbaArray = c.ordinalRows.map (List.map fun i => Color.table.getD i.val [])
  dropAlpha : c.rgbArray = c.rgbaArray.map (List.map (List.take 3))
  entry (x y : ℕ) (hx : x < c.width) (hy : y < c.height) : ∃ color, c.get x y = .ok color ∧
    cellAt? c.rgbaArray y x = some color.rgba.bytes ∧
    cellAt? c.rgbArray y x = some color.rgb.bytes

theorem exported (c : Canvas) : c.Exported where
  shape_rgba := by
    rw [rgbaArray_eq_linesOf]
    apply hasShape_lookup
    intro color
    rfl
  shape_rgb := by
    rw [rgbArray_eq_linesOf]
    apply hasShape_lookup
    intro color
    rfl
  lookup := by
    rw [rgbaArray_eq_linesOf, ordinalRows, ← linesOf_map, ordinals, List.map_map]
    congr 2
    funext color
    exact (Color.getD_table color).symm
  dropAlpha := by
    rw [rgbArray_eq_linesOf, rgbaArray_eq_linesOf, ← linesOf_map, List.map_map]
    rfl
  entry x y hx hy := by
    have hin : c.Inside x y := inside_natCast.mpr ⟨hx, hy⟩
    refine ⟨c.color x y hin, get_of_inside hin, ?_, ?_⟩
    · rw [rgbaArray_eq_linesOf, cellAt?_lookup _ hin]
    · rw [rgbArray_eq_linesOf, cellAt?_lookup _ hin]

/-! ## Decoding -/

/-- The length of the first row. -/
def rowLength {α : Type} (rows : List (List α)) : ℕ :=
  (rows.head?.map List.length).getD 0

/-- The canvas that an array of pixels shows, every pixel of a color. -/
def ofArray? (rows : List (List (List UInt8))) : Option Canvas :=
  match rows.flatten.mapM Color.ofBytes? with
  | none => none
  | some cells =>
    if h : 0 < rowLength rows ∧ 0 < rows.length ∧
        cells.length = rowLength rows * rows.length then
      some ⟨rowLength rows, rows.length, cells.toArray, h.1, h.2.1, by simpa using h.2.2⟩
    else none

theorem ofArray?_eq_some {rows : List (List (List UInt8))} (hwidth : rowLength rows = c.width)
    (hheight : rows.length = c.height)
    (hcells : rows.flatten.mapM Color.ofBytes? = some c.toList) :
    ofArray? rows = some c := by
  obtain ⟨width, height, cells, hw, hh, hsize⟩ := c
  obtain rfl : rowLength rows = width := hwidth
  obtain rfl : rows.length = height := hheight
  have hfits : cells.toList.length = rowLength rows * rows.length := by
    rw [Array.length_toList, hsize]
  simp only [ofArray?, hcells, toList]
  rw [dif_pos ⟨hw, hh, hfits⟩]

/-- The array without opacity gives the canvas back. -/
theorem ofArray?_rgbArray (c : Canvas) : ofArray? c.rgbArray = some c := by
  have hlength : (c.toList.map fun color => color.rgb.bytes).length = c.width * c.height := by
    rw [List.length_map, c.length_toList]
  apply ofArray?_eq_some
  · -- a canvas has a first row, whose length tells the width
    obtain ⟨row, hhead⟩ : ∃ row, c.rgbArray.head? = some row := by
      rw [List.head?_eq_getElem?, rgbArray_eq_linesOf, getElem?_linesOf c.height_pos]
      exact ⟨_, rfl⟩
    have hrow := c.exported.shape_rgb.length_row row (List.mem_of_mem_head? hhead)
    rw [rowLength, hhead]
    exact hrow
  · exact c.exported.shape_rgb.length_rows
  · rw [rgbArray_eq_linesOf, flatten_linesOf hlength]
    exact Color.mapM_ofBytes? _

theorem rgbArray_inj : c.rgbArray = d.rgbArray ↔ c = d := by
  constructor
  · intro h
    have hsome := ofArray?_rgbArray c
    rw [h, ofArray?_rgbArray] at hsome
    exact (Option.some.inj hsome).symm
  · rintro rfl
    rfl

/-! ## One cell -/

theorem cellAt?_rgbArray_eq_none {x y : ℕ} (hout : ¬c.Inside x y) :
    cellAt? c.rgbArray y x = none := by
  rw [rgbArray_eq_linesOf]
  exact cellAt?_linesOf_eq_none fun h => hout (inside_natCast.mpr h)

/-- The arrays show at an entry whether the cells are of one color. -/
theorem cellAt?_rgbArray_inj {x y : ℕ} (hc : c.Inside x y) (hd : d.Inside x y) :
    cellAt? c.rgbArray y x = cellAt? d.rgbArray y x ↔ c.color x y hc = d.color x y hd := by
  rw [rgbArray_eq_linesOf, rgbArray_eq_linesOf, cellAt?_lookup _ hc, cellAt?_lookup _ hd,
    Option.some_inj, Color.bytes_inj]

/-- After a cell was painted in another color the arrays differ at its pixel and nowhere else. -/
theorem cellAt?_rgbArray_put_ne_iff {x y : ℤ} (h : c.Inside x y) {ink : Color}
    (hink : c.color x y h ≠ ink) (x' y' : ℕ) :
    cellAt? (c.put x y h ink).rgbArray y' x' ≠ cellAt? c.rgbArray y' x' ↔ x' = x ∧ y' = y := by
  by_cases hin : c.Inside x' y'
  · have hin' : (c.put x y h ink).Inside x' y' := inside_put.mpr hin
    rw [ne_eq, cellAt?_rgbArray_inj hin' hin]
    by_cases hcell : x = x' ∧ y = y'
    · obtain ⟨rfl, rfl⟩ := hcell
      rw [color_put_self]
      exact iff_of_true hink.symm ⟨rfl, rfl⟩
    · rw [color_put_of_ne hin hcell]
      exact iff_of_false (fun hne => hne rfl) fun heq => hcell ⟨heq.1.symm, heq.2.symm⟩
  · -- neither array has an entry there
    have hin' : ¬(c.put x y h ink).Inside x' y' := mt inside_put.mp hin
    rw [cellAt?_rgbArray_eq_none hin', cellAt?_rgbArray_eq_none hin]
    refine iff_of_false (fun hne => hne rfl) ?_
    rintro ⟨rfl, rfl⟩
    exact hin h

/-- The arrays of a canvas show all of it: they have its size, every entry is the palette's value
of the color that `get` answers, and the one without opacity decodes to the canvas.  So canvases
with equal arrays are equal, and painting a cell in another color changes its pixel and no other. -/
theorem export_loses_nothing (c : Canvas) :
    c.Exported ∧ ofArray? c.rgbArray = some c ∧ (∀ d : Canvas, c.rgbArray = d.rgbArray ↔ c = d) ∧
      ∀ x y ink d, c.set x y ink = .ok d → c.get x y ≠ .ok ink →
        d.width = c.width ∧ d.height = c.height ∧
        ∀ x' y' : ℕ, cellAt? d.rgbArray y' x' ≠ cellAt? c.rgbArray y' x' ↔ x' = x ∧ y' = y := by
  refine ⟨c.exported, c.ofArray?_rgbArray, fun d => rgbArray_inj, ?_⟩
  intro x y ink d hset hother
  have hin : c.Inside x y := by
    by_contra hout
    rw [set_of_not_inside hout] at hset
    cases hset
  rw [set_of_inside hin] at hset
  cases hset
  rw [get_of_inside hin] at hother
  exact ⟨rfl, rfl, cellAt?_rgbArray_put_ne_iff hin fun heq => hother (congrArg _ heq)⟩

end Canvas

end LoopPainter
