import LoopPainter.Proofs.Machine.Control
import LoopPainter.Proofs.ReadOuts
import Mathlib.Order.Nat

/-!
# What is painted

A painter on the canvas is kept there by the wrap alone, so a forward step is never refused, paints
the cell that it moves onto and changes no other (`Inside.get_step_of_paints`,
`Inside.get_step_of_not_paints`).  No other step changes the canvas or the position.

Along a run a cell therefore keeps its color over every stretch of steps that do not paint it
(`Inside.get_after_of_not_paints`), and shows the ink of the last step that did
(`Inside.get_after_of_lastPaints`).  The canvas keeps its size, and each of its cells one of the
eight ordinals.
-/

namespace LoopPainter

namespace Machine

variable {p : Array Char} {m : Machine} {x y : ℤ} {n j : ℕ}

/-! ## One step -/

/-- An `F` is never refused, and paints the cell that the painter moves onto. -/
theorem Inside.step_forward (h : m.Inside) (hF : m.current? = some 'F') :
    m.step.1 = .ok .quiet ∧
      m.step.2.painter = m.painter.advance m.canvas.width m.canvas.height ∧
      ∃ hin, m.step.2.canvas =
        m.canvas.put m.step.2.painter.x m.step.2.painter.y hin m.painter.ink := by
  obtain ⟨s, -, hplace, -⟩ := h.outcome
  rw [hplace] at hF ⊢
  rw [step_plain hF (by decide)]
  exact ⟨rfl, rfl, Painter.inside_advance s.inside, rfl⟩

theorem Inside.step_of_ne_forward (h : m.Inside) (hF : m.current? ≠ some 'F') :
    m.step.2.canvas = m.canvas ∧ m.step.2.painter.x = m.painter.x ∧
      m.step.2.painter.y = m.painter.y := by
  obtain ⟨s, -, hplace, -⟩ := h.outcome
  obtain ⟨_, text, _, _, _, hstep⟩ := exists_step m.commands m.index m.starts m.fired
  obtain ⟨htext, hstep⟩ := hstep s
  rw [hplace] at hF ⊢
  rw [hstep, ← htext]
  -- what is drawn is the character under the cursor alone, or nothing
  cases hc : (place m.commands s m.index m.starts m.fired).current? with
  | none => exact ⟨rfl, rfl, rfl⟩
  | some c =>
      apply s.obey_of_ne_forward
      intro heq
      exact hF (by rw [hc, heq])

/-- The step of `m` is an `F` that moves the painter onto the cell `(x, y)`. -/
def Paints (m : Machine) (x y : ℤ) : Prop :=
  m.current? = some 'F' ∧ m.step.2.painter.x = x ∧ m.step.2.painter.y = y

theorem Inside.get_step_of_paints (h : m.Inside) (hp : m.Paints x y) :
    m.step.2.canvas.get x y = .ok m.painter.ink := by
  obtain ⟨hF, hx, hy⟩ := hp
  obtain ⟨-, -, hin, hcanvas⟩ := h.step_forward hF
  rw [hcanvas, Canvas.get_put, if_pos ⟨hx, hy⟩]

theorem Inside.get_step_of_not_paints (h : m.Inside) (hp : ¬ m.Paints x y) :
    m.step.2.canvas.get x y = m.canvas.get x y := by
  by_cases hF : m.current? = some 'F'
  · obtain ⟨-, -, hin, hcanvas⟩ := h.step_forward hF
    rw [hcanvas, Canvas.get_put, if_neg]
    rintro ⟨hx, hy⟩
    exact hp ⟨hF, hx, hy⟩
  · rw [(h.step_of_ne_forward hF).1]

/-! ## Many steps -/

theorem Inside.size_after (h : m.Inside) (n : ℕ) :
    (m.after n).canvas.width = m.canvas.width ∧ (m.after n).canvas.height = m.canvas.height := by
  obtain ⟨s, -, hplace, -⟩ := h.outcome
  obtain ⟨text, i', starts', fired', hafter⟩ := exists_after m.commands m.index m.starts m.fired n
  rw [hplace, hafter s]
  exact s.size_draw text

/-- The step with number `j` is the last of the first `n` to paint the cell `(x, y)`. -/
def LastPaints (m : Machine) (n : ℕ) (x y : ℤ) (j : ℕ) : Prop :=
  j < n ∧ (m.after j).Paints x y ∧ ∀ k, j < k → k < n → ¬ (m.after k).Paints x y

theorem exists_lastPaints_or (m : Machine) (n : ℕ) (x y : ℤ) :
    (∃ j, m.LastPaints n x y j) ∨ ∀ j < n, ¬ (m.after j).Paints x y := by
  induction n with
  | zero => exact .inr fun j hj => absurd hj (Nat.not_lt_zero j)
  | succ n ih =>
      -- the new step is the last one to paint the cell, or it does not count
      by_cases hpaint : (m.after n).Paints x y
      · exact .inl ⟨n, n.lt_succ_self, hpaint, fun k hnk hkn => by omega⟩
      rcases ih with ⟨j, hlt, hj, hlast⟩ | hnone
      · refine .inl ⟨j, by omega, hj, ?_⟩
        intro k hjk hkn
        rcases Nat.lt_succ_iff_lt_or_eq.mp hkn with hk | rfl
        · exact hlast k hjk hk
        · exact hpaint
      · refine .inr ?_
        intro j hj
        rcases Nat.lt_succ_iff_lt_or_eq.mp hj with hj | rfl
        · exact hnone j hj
        · exact hpaint

/-- A cell keeps its color over a stretch of steps that do not paint it. -/
theorem Inside.get_after_stretch (h : m.Inside) (hle : j ≤ n)
    (hno : ∀ k, j ≤ k → k < n → ¬ (m.after k).Paints x y) :
    (m.after n).canvas.get x y = (m.after j).canvas.get x y := by
  induction n, hle using Nat.le_induction with
  | base => rfl
  | succ n hle ih =>
      calc (m.after (n + 1)).canvas.get x y
          = (m.after n).canvas.get x y := by
            rw [after_succ]
            exact (h.after n).get_step_of_not_paints (hno n hle n.lt_succ_self)
        _ = (m.after j).canvas.get x y := ih fun k hjk hkn => hno k hjk (by omega)

theorem Inside.get_after_of_not_paints (h : m.Inside) (hno : ∀ k < n, ¬ (m.after k).Paints x y) :
    (m.after n).canvas.get x y = m.canvas.get x y :=
  h.get_after_stretch (Nat.zero_le n) fun k _ hk => hno k hk

/-- A cell shows the ink of the last step that painted it. -/
theorem Inside.get_after_of_lastPaints (h : m.Inside) (hlast : m.LastPaints n x y j) :
    (m.after n).canvas.get x y = .ok (m.after j).painter.ink := by
  obtain ⟨hlt, hpaint, hno⟩ := hlast
  -- nothing paints the cell between step `j` and now
  calc (m.after n).canvas.get x y
      = (m.after (j + 1)).canvas.get x y := h.get_after_stretch hlt hno
    _ = .ok (m.after j).painter.ink := by
        rw [after_succ]
        exact (h.after j).get_step_of_paints hpaint

/-- After any number of steps the painter stands on the canvas, which has kept its size, and every
cell shows the ink of the last `F` that moved onto it, or its first color if there was none.  An `F`
changes no cell but the one it moves onto, and no other step changes a cell or the position. -/
theorem drawing_after (p : Array Char) (canvas : Canvas) (n : ℕ) :
    let m := (start p canvas).after n
    (0 ≤ m.painter.x ∧ m.painter.x < canvas.width ∧
      0 ≤ m.painter.y ∧ m.painter.y < canvas.height) ∧
    (m.canvas.width = canvas.width ∧ m.canvas.height = canvas.height ∧
      m.canvas.bytes.length = canvas.width * canvas.height ∧ ∀ b ∈ m.canvas.bytes, b.toNat ≤ 7) ∧
    (∀ x y,
      (∃ j, (start p canvas).LastPaints n x y j ∧
        m.canvas.get x y = .ok ((start p canvas).after j).painter.ink) ∨
      ((∀ j < n, ¬ ((start p canvas).after j).Paints x y) ∧
        m.canvas.get x y = canvas.get x y)) ∧
    (m.current? ≠ some 'F' → m.step.2.canvas = m.canvas ∧
      m.step.2.painter.x = m.painter.x ∧ m.step.2.painter.y = m.painter.y) ∧
    (m.current? = some 'F' → m.step.1 = .ok .quiet ∧
      ∀ x y, ¬ (x = m.step.2.painter.x ∧ y = m.step.2.painter.y) →
        m.step.2.canvas.get x y = m.canvas.get x y) := by
  intro m
  have hstart := inside_start p canvas
  have hin : m.Inside := hstart.after n
  have hw : m.canvas.width = canvas.width := (hstart.size_after n).1
  have hh : m.canvas.height = canvas.height := (hstart.size_after n).2
  refine ⟨?_, ⟨hw, hh, ?_, fun b => Canvas.toNat_le_of_mem_bytes⟩, ?_, hin.step_of_ne_forward, ?_⟩
  · rw [← hw, ← hh]
    exact hin
  · rw [Canvas.length_bytes, hw, hh]
  · intro x y
    -- either some step was the last to paint the cell or none has painted it
    rcases exists_lastPaints_or (start p canvas) n x y with ⟨j, hlast⟩ | hnone
    · exact .inl ⟨j, hlast, hstart.get_after_of_lastPaints hlast⟩
    · exact .inr ⟨hnone, hstart.get_after_of_not_paints hnone⟩
  · intro hF
    refine ⟨(hin.step_forward hF).1, ?_⟩
    intro x y hne
    apply hin.get_step_of_not_paints
    rintro ⟨-, hx, hy⟩
    exact hne ⟨hx.symm, hy.symm⟩

/-- `F[CF]` on a canvas of 1 by 2: the `F` of the second pass moves over the edge onto the cell that
the first step has painted, and leaves the cell that was painted in the first pass. -/
theorem drawing_after_second_pass :
    let m := (start #['F', '[', 'C', 'F', ']'] (.blank 1 2 Nat.one_pos Nat.two_pos .red)).after 6
    m.current? = some 'F' ∧ (m.step.2.painter.x = 0 ∧ m.step.2.painter.y = 1) ∧
      m.step.2.canvas.get 0 0 = m.canvas.get 0 0 ∧ m.canvas.get 0 0 = .ok .black := by
  have hframe := (drawing_after #['F', '[', 'C', 'F', ']']
    (.blank 1 2 Nat.one_pos Nat.two_pos .red) 6).2.2.2.2
  exact ⟨rfl, ⟨rfl, rfl⟩, (hframe rfl).2 0 0 (by decide), rfl⟩

end Machine

end LoopPainter
