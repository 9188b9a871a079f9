import LoopPainter.Proofs.Cells
import LoopPainter.Proofs.Machine.Control
import Mathlib.Algebra.Group.Fin.Basic
import Mathlib.Logic.Equiv.Defs

/-!
# Symmetries of the torus

A `Symmetry` takes the cells of every grid to those of another one, together with inks and headings,
so that the next ink goes to the next ink, the next heading to the next heading, and the cell ahead
to the cell ahead.  Nothing else is asked for, and three kinds are given:

| symmetry          | grid         | cell                                | ink        | heading    |
|-------------------|--------------|-------------------------------------|------------|------------|
| `translation a b` | `w` by `h`   | `((x + a) mod w, (y + b) mod h)`    | itself     | itself     |
| `inkShift k`      | `w` by `h`   | itself                              | `k` later  | itself     |
| `quarterTurn`     | `h` by `w`   | `(h - 1 - y, x)`                    | itself     | two later  |

The image of an easel under a symmetry obeys each character as the easel does (`easel_obey`).
Since steps do not look at the easel, the image of a run is the run of the image
(`Symmetry.after_symmetric`).
-/

namespace LoopPainter

open Vocabulary (next advance)

/-! ## Moving cells -/

namespace Cell

variable {w h : ℕ}

/-- Move by `a` to the right and by `b` down, around the edges. -/
def translate (a b : ℤ) (q : Cell w h) : Cell w h where
  val := ((q.1.1 + a) % w, (q.1.2 + b) % h)
  property := by
    obtain ⟨hx, hxw, hy, hyh⟩ := q.2
    exact ⟨Int.emod_nonneg _ (by omega), Int.emod_lt_of_pos _ (by omega),
      Int.emod_nonneg _ (by omega), Int.emod_lt_of_pos _ (by omega)⟩

/-- Turn the grid a quarter to the right. -/
def turn (q : Cell w h) : Cell h w where
  val := (h - 1 - q.1.2, q.1.1)
  property := by
    obtain ⟨hx, hxw, hy, hyh⟩ := q.2
    exact ⟨by omega, by omega, hx, hxw⟩

/-- Turn the grid a quarter to the left. -/
def turnBack (q : Cell w h) : Cell h w where
  val := (q.1.2, w - 1 - q.1.1)
  property := by
    obtain ⟨hx, hxw, hy, hyh⟩ := q.2
    exact ⟨hy, hyh, by omega, by omega⟩

theorem translate_neg_translate (a b : ℤ) (q : Cell w h) :
    (q.translate a b).translate (-a) (-b) = q := by
  obtain ⟨⟨x, y⟩, hx, hxw, hy, hyh⟩ := q
  simp only [translate, Int.emod_add_emod, Int.add_neg_cancel_right, Int.emod_eq_of_lt hx hxw,
    Int.emod_eq_of_lt hy hyh]

theorem turnBack_turn (q : Cell w h) : q.turn.turnBack = q := by
  refine Subtype.ext (Prod.ext rfl ?_)
  change (h : ℤ) - 1 - (h - 1 - q.1.2) = q.1.2
  omega

theorem turn_turnBack (q : Cell w h) : q.turnBack.turn = q := by
  refine Subtype.ext (Prod.ext ?_ rfl)
  change (w : ℤ) - 1 - (w - 1 - q.1.1) = q.1.1
  omega

/-! ### The cell ahead -/

theorem ahead_eq_translate (q : Cell w h) (d : Heading) : q.ahead d = q.translate d.dx d.dy := by
  obtain ⟨⟨x, y⟩, hx, hxw, hy, hyh⟩ := q
  obtain ⟨⟨hdx, hdx'⟩, hdy, hdy'⟩ := d.delta_bounds
  simp only [ahead, translate, Painter.wrapStep_eq_emod hx hxw hdx hdx',
    Painter.wrapStep_eq_emod hy hyh hdy hdy']

theorem translate_comm (a b a' b' : ℤ) (q : Cell w h) :
    (q.translate a b).translate a' b' = (q.translate a' b').translate a b := by
  simp only [translate, Int.emod_add_emod, Int.add_right_comm]

theorem translate_ahead (a b : ℤ) (q : Cell w h) (d : Heading) :
    (q.ahead d).translate a b = (q.translate a b).ahead d := by
  rw [ahead_eq_translate, ahead_eq_translate, translate_comm]

/-- The mirror image of a step on a ring is a step the other way. -/
theorem sub_wrapStep {x δ : ℤ} {size : ℕ} (hδ : -1 ≤ δ ∧ δ ≤ 1) :
    size - 1 - Painter.wrapStep x δ size = Painter.wrapStep (size - 1 - x) (-δ) size := by
  -- the two edge cases of the wrap change places
  obtain rfl | rfl | rfl : δ = -1 ∨ δ = 0 ∨ δ = 1 := by omega
  all_goals
    unfold Painter.wrapStep
    split_ifs <;> omega

theorem delta_advance_two (d : Heading) : (advance 2 d).dx = -d.dy ∧ (advance 2 d).dy = d.dx := by
  cases d <;> decide

theorem turn_ahead (q : Cell w h) (d : Heading) :
    (q.ahead d).turn = q.turn.ahead (advance 2 d) := by
  obtain ⟨hdx, hdy⟩ := delta_advance_two d
  refine Subtype.ext (Prod.ext ?_ ?_)
  · change h - 1 - Painter.wrapStep q.1.2 d.dy h = Painter.wrapStep (h - 1 - q.1.2) _ h
    rw [sub_wrapStep d.delta_bounds.2, hdx]
  · change Painter.wrapStep q.1.1 d.dx w = Painter.wrapStep q.1.1 _ w
    rw [hdy]

end Cell

/-! ## Symmetries -/

/-- A map of cells, inks and headings under which a forward step remains a forward step. -/
structure Symmetry where
  /-- The size of the image of a grid of `w` by `h`. -/
  width : (w h : ℕ) → ℕ
  height : (w h : ℕ) → ℕ
  cell : {w h : ℕ} → Cell w h ≃ Cell (width w h) (height w h)
  ink : Color → Color
  heading : Heading → Heading
  width_pos : ∀ {w h}, 0 < w → 0 < h → 0 < width w h
  height_pos : ∀ {w h}, 0 < w → 0 < h → 0 < height w h
  ink_next : ∀ c, ink (next c) = next (ink c)
  heading_next : ∀ d, heading (next d) = next (heading d)
  cell_ahead : ∀ {w h} (q : Cell w h) (d : Heading),
    cell (q.ahead d) = (cell q).ahead (heading d)

namespace Symmetry

theorem advance_next {α : Type} [Vocabulary α] (k : ℕ) (a : α) :
    advance k (next a) = next (advance k a) := by
  simp only [advance, next, Vocabulary.ordinal_ofOrdinal]
  rw [add_right_comm]

/-- Every cell by `a` to the right and by `b` down. -/
def translation (a b : ℤ) : Symmetry where
  width w _ := w
  height _ h := h
  cell :=
    { toFun := Cell.translate a b
      invFun := Cell.translate (-a) (-b)
      left_inv := Cell.translate_neg_translate a b
      right_inv := fun q => by simpa using Cell.translate_neg_translate (-a) (-b) q }
  ink := id
  heading := id
  width_pos hw _ := hw
  height_pos _ hh := hh
  ink_next _ := rfl
  heading_next _ := rfl
  cell_ahead := Cell.translate_ahead a b

/-- Every ink `k` places further on in the cycle. -/
def inkShift (k : ℕ) : Symmetry where
  width w _ := w
  height _ h := h
  cell := Equiv.refl _
  ink := advance k
  heading := id
  width_pos hw _ := hw
  height_pos _ hh := hh
  ink_next := advance_next k
  heading_next _ := rfl
  cell_ahead _ _ := rfl

/-- The canvas and the painter turned a quarter to the right. -/
def quarterTurn : Symmetry where
  width _ h := h
  height w _ := w
  cell :=
    { toFun := Cell.turn
      invFun := Cell.turnBack
      left_inv := Cell.turnBack_turn
      right_inv := Cell.turn_turnBack }
  ink := id
  heading := advance 2
  width_pos _ hh := hh
  height_pos hw _ := hw
  ink_next _ := rfl
  heading_next := advance_next 2
  cell_ahead := Cell.turn_ahead

variable (g : Symmetry)

/-! ## The image of an easel -/

/-- The image of a canvas: a cell of it has the image of the shade of the cell it comes from. -/
def canvas (c : Canvas) : Canvas :=
  .ofCells (g.width c.width c.height) (g.height c.width c.height)
    (g.width_pos c.width_pos c.height_pos) (g.height_pos c.width_pos c.height_pos)
    fun r => g.ink (c.shade (g.cell.symm r))

/-- The image of a canvas with the painter on it. -/
def easel (s : Easel) : Easel where
  canvas := g.canvas s.canvas
  painter :=
    { x := (g.cell s.cell).1.1
      y := (g.cell s.cell).1.2
      heading := g.heading s.painter.heading
      ink := g.ink s.painter.ink }
  inside := (g.cell s.cell).2

theorem shade_cell (c : Canvas) (q : Cell c.width c.height) :
    (g.canvas c).shade (g.cell q) = g.ink (c.shade q) := by
  refine (congrFun (Canvas.shade_ofCells _) _).trans ?_
  rw [Equiv.symm_apply_apply]

theorem canvas_put (c : Canvas) (q : Cell c.width c.height) (ink : Color) :
    g.canvas (c.put q.1.1 q.1.2 q.2 ink) =
      (g.canvas c).put (g.cell q).1.1 (g.cell q).1.2 (g.cell q).2 (g.ink ink) := by
  -- taking the image of all shades turns the update of one shade into the update of its image
  have hupdate : g.ink ∘ Function.update c.shade q ink ∘ g.cell.symm =
      Function.update (g.ink ∘ c.shade ∘ g.cell.symm) (g.cell q) (g.ink ink) := by
    rw [Function.update_comp_equiv, Equiv.symm_symm, Function.comp_update]
  have hshade : g.ink ∘ (c.put q.1.1 q.1.2 q.2 ink).shade ∘ g.cell.symm =
      Function.update (g.ink ∘ c.shade ∘ g.cell.symm) (g.cell q) (g.ink ink) := by
    rw [Canvas.shade_put]
    exact hupdate
  refine Eq.trans ?_ (Canvas.put_ofCells _ _ _).symm
  exact congrArg (Canvas.ofCells _ _ _ _) hshade

theorem easel_changeColor (s : Easel) : g.easel s.changeColor = (g.easel s).changeColor := by
  refine Easel.ext rfl ?_
  unfold easel Easel.changeColor Painter.changeColor
  rw [g.ink_next]
  rfl

theorem easel_rotate (s : Easel) : g.easel s.rotate = (g.easel s).rotate := by
  refine Easel.ext rfl ?_
  unfold easel Easel.rotate Painter.rotate
  rw [g.heading_next]
  rfl

theorem easel_forward (s : Easel) : g.easel s.forward = (g.easel s).forward := by
  have hcell := g.cell_ahead s.cell s.painter.heading
  refine Easel.ext ?_ ?_
  · refine (g.canvas_put s.canvas (s.cell.ahead s.painter.heading) s.painter.ink).trans ?_
    rw [hcell]
    rfl
  · change Painter.mk (g.cell (s.cell.ahead s.painter.heading)).1.1
      (g.cell (s.cell.ahead s.painter.heading)).1.2 _ _ = _
    rw [hcell]
    rfl

/-- The image of an easel obeys a character as the easel does. -/
theorem easel_obey (s : Easel) (c : Char) : g.easel (s.obey c) = (g.easel s).obey c := by
  unfold Easel.obey
  split
  · exact g.easel_changeColor s
  · exact g.easel_rotate s
  · exact g.easel_forward s
  · rfl

theorem easel_draw (s : Easel) (l : List Char) : g.easel (s.draw l) = (g.easel s).draw l := by
  induction l generalizing s with
  | nil => rfl
  | cons c l ih => rw [Easel.draw_cons, Easel.draw_cons, ih, easel_obey]

/-! ## The image of a run -/

open Machine (place)

/-- A machine on any easel, and the machine with the same program, cursor, stack and fired positions
on the image of that easel under a translation, a shift of the inks or a quarter turn: after any
number of steps the second easel is still the image of the first, cursor, stack and fired positions
are still the same, and so is what the next step answers. -/
theorem after_symmetric (p : Array Char) (s : Easel) (i : ℤ) (starts fired : List ℤ) (n : ℕ)
    (a b : ℤ) (k : ℕ) :
    ∃ t i' starts' fired' answer,
      (place p s i starts fired).after n = place p t i' starts' fired' ∧
      ((place p s i starts fired).after n).step.1 = answer ∧
      ∀ g ∈ [translation a b, inkShift k, quarterTurn],
        (place p (g.easel s) i starts fired).after n = place p (g.easel t) i' starts' fired' ∧
        ((place p (g.easel s) i starts fired).after n).step.1 = answer ∧
        ∀ q, (g.easel t).canvas.shade (g.cell q) = g.ink (t.canvas.shade q) := by
  obtain ⟨text, i', starts', fired', hafter⟩ := Machine.exists_after p i starts fired n
  obtain ⟨answer, _, _, _, _, hstep⟩ := Machine.exists_step p i' starts' fired'
  refine ⟨s.draw text, i', starts', fired', answer, hafter s, ?_, ?_⟩
  · rw [hafter, (hstep _).2]
  intro g _
  have himage : (place p (g.easel s) i starts fired).after n =
      place p (g.easel (s.draw text)) i' starts' fired' := by
    rw [hafter, g.easel_draw]
  -- the answer is that of the placement, whichever of the two easels stands there
  refine ⟨himage, ?_, g.shade_cell _⟩
  rw [himage, (hstep _).2]

/-- A painter in the corner of a canvas of 3 by 2 heads over the corner, and a turned one on 2 by 3
does so too: `F]` with an open loop before the `F` takes them twice around the edges. -/
theorem after_symmetric_corner :
    let s : Easel :=
      ⟨.blank 3 2 (by decide) Nat.two_pos .black, ⟨0, 0, .upLeft, .red⟩, by decide⟩
    quarterTurn ∈ [translation 1 (-1), inkShift 3, quarterTurn] ∧
    ∃ t i starts fired,
      (place #['F', ']'] s 0 [0] []).after 3 = place #['F', ']'] t i starts fired ∧
      (t.painter.x = 1 ∧ t.painter.y = 0) ∧
      (place #['F', ']'] (quarterTurn.easel s) 0 [0] []).after 3 =
        place #['F', ']'] (quarterTurn.easel t) i starts fired ∧
      ((quarterTurn.easel t).painter.x = 1 ∧ (quarterTurn.easel t).painter.y = 1) := by
  intro s
  have hmem : quarterTurn ∈ [translation 1 (-1), inkShift 3, quarterTurn] := by simp
  obtain ⟨t, i, starts, fired, answer, hafter, -, hall⟩ :=
    after_symmetric #['F', ']'] s 0 [0] [] 3 1 (-1) 3
  obtain ⟨himage, -, -⟩ := hall quarterTurn hmem
  have hpainter : ((place #['F', ']'] s 0 [0] []).after 3).painter = t.painter :=
    congrArg Machine.painter hafter
  have hpainter' : ((place #['F', ']'] (quarterTurn.easel s) 0 [0] []).after 3).painter =
      (quarterTurn.easel t).painter := congrArg Machine.painter himage
  refine ⟨hmem, t, i, starts, fired, hafter, ?_, himage, ?_⟩
  · rw [← hpainter]
    decide +kernel
  · rw [← hpainter']
    decide +kernel

end Symmetry

end LoopPainter
