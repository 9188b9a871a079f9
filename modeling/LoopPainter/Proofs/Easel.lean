import LoopPainter.Painter
import Mathlib.Tactic.Common

/-!
# A painter on its canvas

An `Easel` is a canvas together with a painter who stands on it.  The four
characters that do something by themselves act on it without ever failing, so a
text without loops has a meaning that needs no machine: `draw` is the easel that
the text leaves, and `pauses` are the easels seen at each `S` of it.  The ink and the
heading that are left only depend on how many `C` and `R` there are.
-/

namespace LoopPainter

/-- A canvas and a painter who stands on it. -/
structure Easel where
  canvas : Canvas
  painter : Painter
  inside : canvas.Inside painter.x painter.y

namespace Easel

/-- The painter in the middle of the canvas, facing up, with white ink. -/
def centered (canvas : Canvas) : Easel :=
  ⟨canvas, .centeredOn canvas, Painter.inside_centeredOn canvas⟩

/-- What can be seen of an easel. -/
def look (s : Easel) : Painter × Canvas :=
  (s.painter, s.canvas)

/-- Take the next ink. -/
def changeColor (s : Easel) : Easel :=
  ⟨s.canvas, s.painter.changeColor, s.inside⟩

/-- Turn one eighth of a turn clockwise. -/
def rotate (s : Easel) : Easel :=
  ⟨s.canvas, s.painter.rotate, s.inside⟩

/-- Move one cell along the heading and paint the new cell. -/
def forward (s : Easel) : Easel where
  canvas := s.canvas.put _ _ (Painter.inside_advance s.inside) s.painter.ink
  painter := s.painter.advance s.canvas.width s.canvas.height
  inside := Painter.inside_advance s.inside

/-- A painter who stands on the canvas is never refused a forward step. -/
theorem forward_painter (s : Easel) :
    s.painter.forward s.canvas = (s.forward.painter, .ok s.forward.canvas) := by
  have hinside := Painter.inside_advance s.inside
  simp only [Painter.forward, Canvas.set, dif_pos hinside]
  rfl

/-- Obey one character; all but three do nothing to the easel. -/
def obey (s : Easel) (c : Char) : Easel :=
  match c with
  | 'C' => s.changeColor
  | 'R' => s.rotate
  | 'F' => s.forward
  | _ => s

/-- Obey the characters of a text without loops, from left to right. -/
def draw (s : Easel) (l : List Char) : Easel :=
  l.foldl obey s

/-- The easels at each `S` of a text without loops. -/
def pauses (s : Easel) : List Char → List Easel
  | [] => []
  | c :: rest => (if c = 'S' then [s] else []) ++ (s.obey c).pauses rest

@[simp] theorem draw_nil (s : Easel) : s.draw [] = s := rfl

@[simp] theorem draw_cons (s : Easel) (c : Char) (l : List Char) :
    s.draw (c :: l) = (s.obey c).draw l := rfl

@[simp] theorem draw_append (s : Easel) (l l' : List Char) :
    s.draw (l ++ l') = (s.draw l).draw l' :=
  List.foldl_append

@[simp] theorem pauses_append (s : Easel) (l l' : List Char) :
    s.pauses (l ++ l') = s.pauses l ++ (s.draw l).pauses l' := by
  induction l generalizing s with
  | nil => rfl
  | cons c l ih => simp [pauses, ih]

/-! ## What obeying leaves alone -/

theorem size_obey (s : Easel) (c : Char) :
    (s.obey c).canvas.width = s.canvas.width ∧ (s.obey c).canvas.height = s.canvas.height := by
  unfold obey
  split <;> exact ⟨rfl, rfl⟩

theorem size_draw (s : Easel) (l : List Char) :
    (s.draw l).canvas.width = s.canvas.width ∧ (s.draw l).canvas.height = s.canvas.height := by
  induction l generalizing s with
  | nil => exact ⟨rfl, rfl⟩
  | cons c l ih =>
      obtain ⟨hw, hh⟩ := s.size_obey c
      obtain ⟨hw', hh'⟩ := ih (s.obey c)
      exact ⟨hw'.trans hw, hh'.trans hh⟩

theorem obey_of_ne_forward (s : Easel) {c : Char} (h : c ≠ 'F') :
    (s.obey c).canvas = s.canvas ∧ (s.obey c).painter.x = s.painter.x ∧
      (s.obey c).painter.y = s.painter.y := by
  unfold obey
  split
  · exact ⟨rfl, rfl, rfl⟩
  · exact ⟨rfl, rfl, rfl⟩
  · exact absurd rfl h
  · exact ⟨rfl, rfl, rfl⟩

/-! ## Ink, heading and pauses of a text without loops -/

/-- A dial of eight places that one character advances shows the number of these characters. -/
private theorem dial_draw {k : Char} (dial : Easel → Fin 8)
    (hdial : ∀ s c, dial (s.obey c) = dial s + if c = k then 1 else 0) (s : Easel)
    (l : List Char) : (dial (s.draw l)).val = ((dial s).val + l.count k) % 8 := by
  induction l generalizing s with
  | nil => simp [Nat.mod_eq_of_lt (dial s).isLt]
  | cons c l ih =>
      rw [draw_cons, ih, hdial, List.count_cons]
      by_cases hc : c = k
      · have hone : (1 : Fin 8).val = 1 := rfl
        simp only [hc, if_true, BEq.rfl, Fin.val_add, hone]
        omega
      · simp [hc]

theorem ordinal_ink_draw (s : Easel) (l : List Char) :
    (Vocabulary.ordinal (s.draw l).painter.ink).val =
      ((Vocabulary.ordinal s.painter.ink).val + l.count 'C') % 8 := by
  refine dial_draw (fun s => Vocabulary.ordinal s.painter.ink) (fun s c => ?_) s l
  by_cases hc : c = 'C'
  · subst hc
    exact Vocabulary.ordinal_next _
  · rw [if_neg hc, Fin.add_zero]
    unfold obey
    split
    · exact absurd rfl hc
    · rfl
    · rfl
    · rfl

theorem ordinal_heading_draw (s : Easel) (l : List Char) :
    (Vocabulary.ordinal (s.draw l).painter.heading).val =
      ((Vocabulary.ordinal s.painter.heading).val + l.count 'R') % 8 := by
  refine dial_draw (fun s => Vocabulary.ordinal s.painter.heading) (fun s c => ?_) s l
  by_cases hc : c = 'R'
  · subst hc
    exact Vocabulary.ordinal_next _
  · rw [if_neg hc, Fin.add_zero]
    unfold obey
    split
    · rfl
    · exact absurd rfl hc
    · rfl
    · rfl

theorem length_pauses (s : Easel) (l : List Char) : (s.pauses l).length = l.count 'S' := by
  induction l generalizing s with
  | nil => rfl
  | cons c l ih =>
      rw [pauses, List.length_append, ih, List.count_cons]
      by_cases hS : c = 'S' <;> simp [hS]
      omega

end Easel

end LoopPainter
