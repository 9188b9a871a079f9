import LoopPainter.Proofs.Cells

/-!
# The read-outs of a canvas

A canvas is read cell by cell (`get`) or as a whole: as the list of its colors, as one byte for each
cell, and as its rows of ordinals.  The lists hold the cell `(x, y)` at the place `y * width + x`,
and the rows hold it in row `y` at the place `x` (`ReadsOut`).  `get` shows all that there is in a
canvas: two of the same size that answer alike are equal (`eq_iff_get`).
-/

namespace LoopPainter.Canvas

variable {c d : Canvas}

/-! ## Checked access -/

theorem get_of_inside {x y : ℤ} (h : c.Inside x y) : c.get x y = .ok (c.color x y h) :=
  dif_pos h

theorem get_of_not_inside {x y : ℤ} (h : ¬c.Inside x y) : c.get x y = .error (c.outside x y) :=
  dif_neg h

theorem set_of_inside {x y : ℤ} (h : c.Inside x y) (ink : Color) :
    c.set x y ink = .ok (c.put x y h ink) :=
  dif_pos h

theorem set_of_not_inside {x y : ℤ} (h : ¬c.Inside x y) (ink : Color) :
    c.set x y ink = .error (c.outside x y) :=
  dif_neg h

theorem get_put {x y x' y' : ℤ} (h : c.Inside x y) (ink : Color) :
    (c.put x y h ink).get x' y' = if x = x' ∧ y = y' then .ok ink else c.get x' y' := by
  unfold get
  by_cases hin : c.Inside x' y'
  · rw [dif_pos hin, dif_pos (inside_put.mpr hin)]
    split
    · next heq =>
        obtain ⟨rfl, rfl⟩ := heq
        rw [color_put_self]
    · next hne => rw [color_put_of_ne hin hne]
  · rw [dif_neg hin, dif_neg (mt inside_put.mp hin), if_neg]
    · rfl
    · rintro ⟨rfl, rfl⟩
      exact hin h

/-- Two canvases are equal if they have one size and `get` answers alike on them. -/
theorem eq_iff_get : c = d ↔ c.width = d.width ∧ c.height = d.height ∧
    ∀ x y, c.Inside x y → c.get x y = d.get x y := by
  constructor
  · rintro rfl
    exact ⟨rfl, rfl, fun x y _ => rfl⟩
  · rintro ⟨hwidth, hheight, hget⟩
    obtain ⟨w, h, cells, hw, hh, hsize⟩ := c
    obtain ⟨w', h', cells', hw', hh', hsize'⟩ := d
    obtain rfl : w = w' := hwidth
    obtain rfl : h = h' := hheight
    rw [← ofCells_shade ⟨w, h, cells, hw, hh, hsize⟩,
      ← ofCells_shade ⟨w, h, cells', hw, hh, hsize'⟩]
    congr 1
    funext q
    have hq := hget q.1.1 q.1.2 q.2
    rw [get_of_inside q.2, get_of_inside (c := ⟨w, h, cells', hw, hh, hsize'⟩) q.2] at hq
    exact Except.ok.inj hq

/-! ## Lines -/

section Lines

variable {α β : Type} {width height x y : ℕ} {cells : List α}

/-- The cell `[y][x]` of rows. -/
def cellAt? (rows : List (List α)) (y x : ℕ) : Option α :=
  rows[y]?.bind fun row => row[x]?

theorem length_linesOf (width height : ℕ) (cells : List α) :
    (linesOf width height cells).length = height := by
  induction height generalizing cells with
  | zero => rfl
  | succ height ih => rw [linesOf, List.length_cons, ih]

theorem linesOf_map (f : α → β) (width height : ℕ) (cells : List α) :
    linesOf width height (cells.map f) = (linesOf width height cells).map (List.map f) := by
  induction height generalizing cells with
  | zero => rfl
  | succ height ih =>
      rw [linesOf, linesOf, List.map_cons, ← ih, List.map_take, List.map_drop]

theorem getElem?_linesOf (hy : y < height) (cells : List α) :
    (linesOf width height cells)[y]? = some ((cells.drop (y * width)).take width) := by
  induction height generalizing y cells with
  | zero => exact absurd hy (Nat.not_lt_zero y)
  | succ height ih =>
      cases y with
      | zero => simp [linesOf]
      | succ y =>
          rw [linesOf, List.getElem?_cons_succ, ih (Nat.lt_of_succ_lt_succ hy), List.drop_drop,
            Nat.succ_mul, Nat.add_comm width]

theorem length_of_mem_linesOf (hlength : cells.length = width * height) {row : List α}
    (hrow : row ∈ linesOf width height cells) : row.length = width := by
  obtain ⟨y, hline⟩ := List.mem_iff_getElem?.mp hrow
  have hy : y < height := by
    obtain ⟨hy, -⟩ := List.getElem?_eq_some_iff.mp hline
    rwa [length_linesOf] at hy
  rw [getElem?_linesOf hy] at hline
  -- the rows below leave room for all of row `y`
  have hroom : (y + 1) * width ≤ height * width := Nat.mul_le_mul_right _ hy
  rw [Nat.succ_mul] at hroom
  rw [← Option.some.inj hline, List.length_take, List.length_drop, hlength, Nat.mul_comm width]
  omega

theorem flatten_linesOf (hlength : cells.length = width * height) :
    (linesOf width height cells).flatten = cells := by
  induction height generalizing cells with
  | zero => exact (List.length_eq_zero_iff.mp hlength).symm
  | succ height ih =>
      rw [Nat.mul_succ] at hlength
      rw [linesOf, List.flatten_cons, ih (by rw [List.length_drop, hlength, Nat.add_sub_cancel]),
        List.take_append_drop]

theorem cellAt?_linesOf (hx : x < width) (hy : y < height) :
    cellAt? (linesOf width height cells) y x = cells[y * width + x]? := by
  rw [cellAt?, getElem?_linesOf hy, Option.bind_some, List.getElem?_take_of_lt hx,
    List.getElem?_drop]

theorem cellAt?_linesOf_eq_none (hout : ¬(x < width ∧ y < height)) :
    cellAt? (linesOf width height cells) y x = none := by
  by_cases hy : y < height
  · rw [cellAt?, getElem?_linesOf hy, Option.bind_some, List.getElem?_eq_none]
    have := List.length_take_le width (cells.drop (y * width))
    omega
  · rw [cellAt?, List.getElem?_eq_none]
    · rfl
    · rw [length_linesOf]
      omega

end Lines

/-! ## All cells at once -/

theorem length_toList (c : Canvas) : c.toList.length = c.width * c.height := by
  rw [toList, Array.length_toList, c.size_cells]

theorem length_ordinals (c : Canvas) : c.ordinals.length = c.width * c.height := by
  rw [ordinals, List.length_map, c.length_toList]

theorem length_bytes (c : Canvas) : c.bytes.length = c.width * c.height := by
  rw [bytes, List.length_map, c.length_ordinals]

theorem toNat_le_of_mem_bytes {b : UInt8} (h : b ∈ c.bytes) : b.toNat ≤ 7 := by
  obtain ⟨i, -, rfl⟩ := List.mem_map.mp h
  have := i.isLt
  rw [UInt8.toNat_ofNat']
  omega

section Natural

variable {x y : ℕ}

theorem inside_natCast : c.Inside x y ↔ x < c.width ∧ y < c.height := by
  unfold Inside
  omega

theorem getElem?_toList (h : c.Inside x y) :
    c.toList[y * c.width + x]? = some (c.color x y h) := by
  have hplace : y * c.width + x < c.cells.size := place_lt h
  rw [toList, Array.getElem?_toList, Array.getElem?_eq_getElem hplace]
  rfl

/-- The cells cut into rows, each looked up in a table, hold the cell `(x, y)` at `[y][x]`. -/
theorem cellAt?_lookup {β : Type} (f : Color → β) (h : c.Inside x y) :
    cellAt? (linesOf c.width c.height (c.toList.map f)) y x = some (f (c.color x y h)) := by
  obtain ⟨hx, hy⟩ := inside_natCast.mp h
  rw [cellAt?_linesOf hx hy, List.getElem?_map, getElem?_toList h]
  rfl

end Natural

/-- What each read-out of a canvas shows. -/
structure ReadsOut (c : Canvas) : Prop where
  length_cells : c.toList.length = c.width * c.height
  length_bytes : c.bytes.length = c.width * c.height
  length_rows : c.ordinalRows.length = c.height ∧ ∀ row ∈ c.ordinalRows, row.length = c.width
  cell (x y : ℕ) (hx : x < c.width) (hy : y < c.height) : ∃ color, c.get x y = .ok color ∧
    c.toList[y * c.width + x]? = some color ∧
    c.bytes[y * c.width + x]? = some (UInt8.ofNat (Vocabulary.ordinal color).val) ∧
    cellAt? c.ordinalRows y x = some (Vocabulary.ordinal color)

theorem readsOut (c : Canvas) : c.ReadsOut where
  length_cells := c.length_toList
  length_bytes := c.length_bytes
  length_rows := ⟨length_linesOf _ _ _, fun _ => length_of_mem_linesOf c.length_ordinals⟩
  cell x y hx hy := by
    have hin : c.Inside x y := inside_natCast.mpr ⟨hx, hy⟩
    have hcell := getElem?_toList hin
    refine ⟨c.color x y hin, get_of_inside hin, hcell, ?_, cellAt?_lookup _ hin⟩
    rw [bytes, ordinals, List.getElem?_map, List.getElem?_map, hcell]
    rfl

end LoopPainter.Canvas
