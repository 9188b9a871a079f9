import LoopPainter.Proofs.Machine.Painted

/-!
# What the first canvas can influence

One program is run on two canvases.  The steps of the two runs draw one text (`exists_after`), so
all that this text determines alone is the same in both: cursor, stack, fired positions, ink,
heading, and what every step answers (`sameControl_after`).  The size of the canvas has an influence
on where the painter stands, by the wrap, and on nothing else; what the canvas shows has none
(`painter_after`).

On canvases of one size the same cells are then painted by the same steps with the same inks
(`paints_after_iff`).  So a cell shows one color in both runs once it is painted, and until then
what each canvas has shown there at first.
-/

namespace LoopPainter

namespace Easel

variable {s t : Easel}

theorem pen_obey (hheading : s.painter.heading = t.painter.heading)
    (hink : s.painter.ink = t.painter.ink) (c : Char) :
    (s.obey c).painter.heading = (t.obey c).painter.heading ∧
      (s.obey c).painter.ink = (t.obey c).painter.ink := by
  unfold obey
  split
  · exact ⟨hheading, congrArg Vocabulary.next hink⟩
  · exact ⟨congrArg Vocabulary.next hheading, hink⟩
  · exact ⟨hheading, hink⟩
  · exact ⟨hheading, hink⟩

theorem pen_draw (hheading : s.painter.heading = t.painter.heading)
    (hink : s.painter.ink = t.painter.ink) (l : List Char) :
    (s.draw l).painter.heading = (t.draw l).painter.heading ∧
      (s.draw l).painter.ink = (t.draw l).painter.ink := by
  induction l generalizing s t with
  | nil => exact ⟨hheading, hink⟩
  | cons c l ih =>
      obtain ⟨hheading', hink'⟩ := pen_obey hheading hink c
      exact ih hheading' hink'

theorem painter_obey (hw : s.canvas.width = t.canvas.width) (hh : s.canvas.height = t.canvas.height)
    (hpainter : s.painter = t.painter) (c : Char) : (s.obey c).painter = (t.obey c).painter := by
  unfold obey
  split
  · exact congrArg Painter.changeColor hpainter
  · exact congrArg Painter.rotate hpainter
  · change s.painter.advance s.canvas.width s.canvas.height =
      t.painter.advance t.canvas.width t.canvas.height
    rw [hpainter, hw, hh]
  · exact hpainter

theorem painter_draw (hw : s.canvas.width = t.canvas.width) (hh : s.canvas.height = t.canvas.height)
    (hpainter : s.painter = t.painter) (l : List Char) :
    (s.draw l).painter = (t.draw l).painter := by
  induction l generalizing s t with
  | nil => exact hpainter
  | cons c l ih =>
      obtain ⟨hsw, hsh⟩ := s.size_obey c
      obtain ⟨htw, hth⟩ := t.size_obey c
      exact ih (by rw [hsw, htw, hw]) (by rw [hsh, hth, hh]) (painter_obey hw hh hpainter c)

end Easel

namespace Machine

variable {c d : Canvas} {x y : ℤ} {n j : ℕ}

/-- Two machines that differ at most in the canvas and in where the painter stands, and whose next
steps answer the same. -/
structure SameControl (m k : Machine) : Prop where
  commands : m.commands = k.commands
  index : m.index = k.index
  starts : m.starts = k.starts
  fired : m.fired = k.fired
  heading : m.painter.heading = k.painter.heading
  ink : m.painter.ink = k.painter.ink
  answer : m.step.1 = k.step.1

theorem sameControl_after (p : Array Char) (c d : Canvas) (n : ℕ) :
    SameControl ((start p c).after n) ((start p d).after n) := by
  obtain ⟨text, i, starts, fired, hafter⟩ := exists_after p 0 [] [] n
  obtain ⟨answer, _, _, _, _, hstep⟩ := exists_step p i starts fired
  obtain ⟨hheading, hink⟩ := Easel.pen_draw (s := .centered c) (t := .centered d) rfl rfl text
  rw [start_eq_place, start_eq_place, hafter, hafter]
  -- the program, cursor, stack and fired positions are those of one and the same placement
  refine ⟨rfl, rfl, rfl, rfl, hheading, hink, ?_⟩
  rw [(hstep _).2, (hstep _).2]

theorem SameControl.current?_eq {m k : Machine} (h : SameControl m k) :
    m.current? = k.current? := by
  unfold current?
  rw [h.commands, h.index]

section SameSize

variable (p : Array Char) (hw : c.width = d.width) (hh : c.height = d.height)
include hw hh

theorem painter_after (n : ℕ) : ((start p c).after n).painter = ((start p d).after n).painter := by
  obtain ⟨text, i, starts, fired, hafter⟩ := exists_after p 0 [] [] n
  have hcentered : (Easel.centered c).painter = (Easel.centered d).painter := by
    simp only [Easel.centered, Painter.centeredOn, hw, hh]
  rw [start_eq_place, start_eq_place, hafter, hafter]
  exact Easel.painter_draw hw hh hcentered text

theorem paints_after_iff (j : ℕ) :
    ((start p c).after j).Paints x y ↔ ((start p d).after j).Paints x y := by
  unfold Paints
  rw [(sameControl_after p c d j).current?_eq, ← after_succ, ← after_succ,
    painter_after p hw hh (j + 1)]

theorem lastPaints_iff : (start p c).LastPaints n x y j ↔ (start p d).LastPaints n x y j := by
  simp only [LastPaints, paints_after_iff p hw hh]

end SameSize

/-- One program on two canvases: after any number of steps the cursor, the stack, the fired
positions, the ink and the heading are the same, and so is the answer to the next step.  If the
canvases are of one size, the painters stand on the same cell, and each cell has been painted last
by the same step in both runs, and shows the ink of that step, or it has been painted in neither,
and shows what it has shown at first. -/
theorem runs_on_two_canvases (p : Array Char) (c d : Canvas) (n : ℕ) :
    SameControl ((start p c).after n) ((start p d).after n) ∧
    (c.width = d.width → c.height = d.height →
      ((start p c).after n).painter = ((start p d).after n).painter ∧
      ∀ x y,
        (∃ j ink, (start p c).LastPaints n x y j ∧ (start p d).LastPaints n x y j ∧
          ((start p c).after n).canvas.get x y = .ok ink ∧
          ((start p d).after n).canvas.get x y = .ok ink) ∨
        ((∀ j < n, ¬ ((start p c).after j).Paints x y ∧ ¬ ((start p d).after j).Paints x y) ∧
          ((start p c).after n).canvas.get x y = c.get x y ∧
          ((start p d).after n).canvas.get x y = d.get x y)) := by
  refine ⟨sameControl_after p c d n, ?_⟩
  intro hw hh
  refine ⟨painter_after p hw hh n, ?_⟩
  intro x y
  have hc := inside_start p c
  have hd := inside_start p d
  rcases exists_lastPaints_or (start p c) n x y with ⟨j, hlast⟩ | hnone
  -- the step that painted the cell last in one run did so in the other, with the same ink
  · have hlast' := (lastPaints_iff p hw hh).mp hlast
    refine .inl ⟨j, _, hlast, hlast', hc.get_after_of_lastPaints hlast, ?_⟩
    rw [hd.get_after_of_lastPaints hlast', painter_after p hw hh j]
  · have hnone' : ∀ j < n, ¬ ((start p d).after j).Paints x y := by
      intro j hj hpaint
      exact hnone j hj ((paints_after_iff p hw hh j).mpr hpaint)
    exact .inr ⟨fun j hj => ⟨hnone j hj, hnone' j hj⟩, hc.get_after_of_not_paints hnone,
      hd.get_after_of_not_paints hnone'⟩

/-- One `F` on two canvases of 2 by 1: the cell that it moves onto shows the ink in both, and the
other one what each canvas has shown there. -/
theorem runs_on_two_canvases_forward :
    let c : Canvas := .blank 2 1 Nat.two_pos Nat.one_pos .black
    let d : Canvas := .blank 2 1 Nat.two_pos Nat.one_pos .red
    (c.width = d.width ∧ c.height = d.height) ∧
      ((start #['F'] c).after 1).painter = ((start #['F'] d).after 1).painter ∧
      (((start #['F'] c).after 1).canvas.get 1 0 = .ok .black ∧
        ((start #['F'] d).after 1).canvas.get 1 0 = .ok .red) ∧
      ((start #['F'] c).after 1).canvas.get 0 0 = ((start #['F'] d).after 1).canvas.get 0 0 := by
  intro c d
  obtain ⟨-, hsize⟩ := runs_on_two_canvases #['F'] c d 1
  obtain ⟨hpainter, hcells⟩ := hsize rfl rfl
  refine ⟨⟨rfl, rfl⟩, hpainter, ?_, ?_⟩
  · rcases hcells 1 0 with ⟨j, ink, hlast, -⟩ | ⟨-, hget, hget'⟩
    · obtain rfl : j = 0 := by have := hlast.1; omega
      exact absurd hlast.2.1.2.1 (by decide)
    · exact ⟨hget, hget'⟩
  · rcases hcells 0 0 with ⟨j, ink, -, -, hget, hget'⟩ | ⟨hnone, -⟩
    · rw [hget, hget']
    · exact absurd ⟨rfl, by decide, by decide⟩ (hnone 0 Nat.one_pos).1

end Machine

end LoopPainter
