import LoopPainter.Proofs.Machine.Step
import Mathlib.Logic.Function.Iterate

/-!
# Steps do not look at the easel

A step is decided by the character under the cursor, the stack and the fired positions; nothing is
read from the canvas or from the painter.  So one step is the same step at every easel: it gives one
answer, moves the cursor, the stack and the fired positions in one way, and lets the easel obey the
character under the cursor (`exists_step`).  By induction, `n` steps draw one text without loops,
whatever the easel is that they start from (`exists_after`).

Here the steps that are refused are counted too; they change nothing.
-/

namespace LoopPainter.Machine

variable {p : Array Char} {m : Machine}

/-- The machine after `n` steps, taken or refused. -/
def after (m : Machine) (n : ℕ) : Machine :=
  (fun m => m.step.2)^[n] m

@[simp] theorem after_zero (m : Machine) : m.after 0 = m := rfl

theorem after_succ (m : Machine) (n : ℕ) : m.after (n + 1) = (m.after n).step.2 :=
  Function.iterate_succ_apply' _ n m

theorem current?_eq_none_of_size_le {s : Easel} {i : ℤ} {starts fired : List ℤ}
    (h : (p.size : ℤ) ≤ i) : (place p s i starts fired).current? = none := by
  cases hc : (place p s i starts fired).current? with
  | none => rfl
  | some c =>
      have hdone : (place p s i starts fired).done = true := decide_eq_true h
      rw [done_of_current hc] at hdone
      exact absurd hdone Bool.false_ne_true

/-- The easel obeys the character under the cursor, if there is one.  Brackets do nothing to it,
whether they open, jump, pass or halt. -/
theorem exists_step (p : Array Char) (i : ℤ) (starts fired : List ℤ) :
    ∃ answer text i' starts' fired', ∀ s : Easel,
      (place p s i starts fired).current?.toList = text ∧
        (place p s i starts fired).step = (answer, place p (s.draw text) i' starts' fired') := by
  -- the cases are those of any one easel, since the hypothesis of each does not mention it
  have houtcome := outcome_step p (.centered (.blank 1 1 Nat.one_pos Nat.one_pos .black)) i
    starts fired
  generalize step _ = r at houtcome
  cases houtcome with
  | @plain c hc hne =>
      exact ⟨_, [c], _, _, _, fun s => ⟨congrArg Option.toList hc, step_plain hc hne⟩⟩
  | opening hc =>
      exact ⟨_, ['['], _, _, _, fun s => ⟨congrArg Option.toList hc, step_open hc⟩⟩
  | passing hc hfired =>
      exact ⟨_, [']'], _, _, _, fun s => ⟨congrArg Option.toList hc, step_pass hc hfired⟩⟩
  | jumping hc hfired hstarts =>
      subst hstarts
      exact ⟨_, [']'], _, _, _, fun s => ⟨congrArg Option.toList hc, step_jump hc hfired⟩⟩
  | stray hc hfired hstarts =>
      subst hstarts
      exact ⟨_, [']'], _, _, _, fun s => ⟨congrArg Option.toList hc, step_stray hc hfired⟩⟩
  | finished hge =>
      refine ⟨_, [], _, _, _, fun s => ⟨?_, step_finished hge⟩⟩
      rw [current?_eq_none_of_size_le hge]
      rfl
  | unreadable hlt hc =>
      exact ⟨_, [], _, _, _, fun s => ⟨congrArg Option.toList hc, step_unreadable hlt hc⟩⟩

theorem exists_after (p : Array Char) (i : ℤ) (starts fired : List ℤ) (n : ℕ) :
    ∃ text i' starts' fired', ∀ s : Easel,
      (place p s i starts fired).after n = place p (s.draw text) i' starts' fired' := by
  induction n with
  | zero => exact ⟨[], i, starts, fired, fun s => rfl⟩
  | succ n ih =>
      obtain ⟨text, i', starts', fired', hafter⟩ := ih
      obtain ⟨_, last, i'', starts'', fired'', hstep⟩ := exists_step p i' starts' fired'
      refine ⟨text ++ last, i'', starts'', fired'', ?_⟩
      intro s
      rw [after_succ, hafter, (hstep _).2, Easel.draw_append]

/-- A painter who stands on the canvas is kept there by refused steps as well. -/
theorem Inside.after (h : m.Inside) (n : ℕ) : (m.after n).Inside := by
  obtain ⟨s, -, hplace, -⟩ := h.outcome
  obtain ⟨text, i', starts', fired', hafter⟩ := exists_after m.commands m.index m.starts m.fired n
  rw [hplace, hafter s]
  exact inside_place

end LoopPainter.Machine
