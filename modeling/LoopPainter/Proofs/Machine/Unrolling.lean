import LoopPainter.Proofs.Machine.Passage

/-!
# A run draws the unrolled text

What a machine leaves on its easel, and what it shows at its pauses, is what the
loop-free text `unroll` makes of the program: every loop body written twice.  The
text of the program is followed up to its first `]` without partner; a `[` that is
never closed is no loop.  The loops that are unrolled are the pairs of partners
(`Brackets.mem_pairs_ofText_iff`).
-/

namespace LoopPainter.Machine

open Brackets

/-- A run ends at the end of the program or at a `]` without partner.  Either way it leaves the
painter and the canvas that the unrolled program draws from the middle of the canvas, and its
pauses show what is seen at each `S` of the unrolled program. -/
theorem run_draws_unrolled (p : Array Char) (canvas : Canvas) :
    ∃ steps halt last,
      (start p canvas).run = (steps, halt, last) ∧
      (halt = .endOfCommands last.index ∨ halt = .unmatchedClose last.index) ∧
      last.look = ((Easel.centered canvas).draw (unroll p.toList)).look ∧
      (start p canvas).pauseLooks =
        ((Easel.centered canvas).pauses (unroll p.toList)).map Easel.look := by
  obtain ⟨ms, hwalk, -, hlooks⟩ := passage_start p canvas
  refine ⟨_, _, _, run_start p canvas, ?_, rfl, ?_⟩
  · change haltOf p.toList = .endOfCommands (cutoff p.toList) ∨
      haltOf p.toList = .unmatchedClose (cutoff p.toList)
    unfold haltOf
    split
    · exact .inr rfl
    · exact .inl rfl
  · rw [pauseLooks_of_walk hwalk (inside_start p canvas) (step_cutoff p _), hlooks]

end LoopPainter.Machine
