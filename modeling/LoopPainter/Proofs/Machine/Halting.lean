import LoopPainter.Proofs.Machine.LoopState
import LoopPainter.Proofs.Machine.Passage
import Mathlib.Logic.Function.Iterate

/-!
# How a run ends

A run is stopped by a `]` without partner exactly if some beginning of the program
has more `]` than `[`, and then at the last character of the shortest such
beginning.  Nothing is open and nothing has fired there, and the easel is the one
that the program up to that `]` leaves by itself (`unroll_take_cutoff`).  Otherwise
the run ends at the end of the program.

No machine that a run meets is refused a step for any other reason, and a refused
step leaves the machine as it was, so it is refused again for the same reason.
-/

namespace LoopPainter

namespace Brackets

/-- A text before its cut is read to its end and unrolled as in the whole text. -/
theorem unroll_take_cutoff {l : List Char} (h : cutoff l < l.length) :
    cutoff (l.take (cutoff l)) = cutoff l ∧ unroll (l.take (cutoff l)) = unroll l := by
  cases hread : Reading.ofText l with
  | whole r => exact absurd (cutoff_of_whole hread) (Nat.ne_of_lt h)
  | cut b after =>
      have htake : l.take b.length = b.text := by
        rw [← Reading.text_of_cut hread, ← b.length_text, List.take_left]
      have hread' : Reading.ofText (l.take b.length) = .whole (.last b) := by
        rw [htake]
        exact Reading.ofText_text (.whole (.last b))
      have hlen : (l.take b.length).length = b.length := by
        rw [htake, b.length_text]
      rw [cutoff_of_cut hread, cutoff_of_whole hread', hlen, unroll, unroll, hread, hread']
      exact ⟨rfl, rfl⟩

theorem starts_of_cutoff_lt {l : List Char} (h : cutoff l < l.length) :
    (Reading.ofText l).starts = [] := by
  cases hread : Reading.ofText l with
  | whole r => exact absurd (cutoff_of_whole hread) (Nat.ne_of_lt h)
  | cut b after => rfl

end Brackets

namespace Machine

open Brackets

variable {p : Array Char} {canvas : Canvas} {m last : Machine} {ms : List Machine} {halt : Halt}

/-- A refused step is refused again. -/
theorem step_iterate_of_error (h : m.step = (.error halt, m)) (n : ℕ) :
    ((fun m => m.step.2)^[n] m).step = (.error halt, m) := by
  have hfixed : (fun m : Machine => m.step.2)^[n] m = m :=
    Function.iterate_fixed (by rw [h]) n
  rw [hfixed, h]

/-- The machine that ends a walk from the start is the one at the cut. -/
theorem Walk.halt_eq (h : Walk (start p canvas) ms m) (hhalt : m.step = (.error halt, last)) :
    halt = haltOf p.toList ∧ last.index = cutoff p.toList := by
  have hrun := (run_of_walk h hhalt).symm.trans (run_start p canvas)
  simp only [Prod.mk.injEq] at hrun
  exact ⟨hrun.2.1, by rw [hrun.2.2]; rfl⟩

theorem exists_haltOf_eq_unmatchedClose_iff {l : List Char} :
    (∃ u, haltOf l = .unmatchedClose u) ↔ ∃ k ≤ l.length, depth l k < 0 := by
  rw [← cutoff_lt_length_iff]
  unfold haltOf
  constructor
  · rintro ⟨u, hu⟩
    by_contra hge
    rw [if_neg hge] at hu
    cases hu
  · exact fun h => ⟨cutoff l, if_pos h⟩

/-- A program with a `]` without partner is stopped there, with the easel that the program before
the `]` leaves by itself. -/
theorem run_stray (canvas : Canvas) (h : cutoff p.toList < p.size) :
    ∃ steps last steps' last',
      (start p canvas).run = (steps, .unmatchedClose (cutoff p.toList), last) ∧
      last.index = cutoff p.toList ∧ last.starts = [] ∧ last.fired = [] ∧
      (start (p.extract 0 (cutoff p.toList)) canvas).run =
        (steps', .endOfCommands (cutoff p.toList), last') ∧
      last.look = last'.look := by
  rw [← Array.length_toList] at h
  obtain ⟨hcutoff, hunroll⟩ := unroll_take_cutoff h
  have hextract : (p.extract 0 (cutoff p.toList)).toList = p.toList.take (cutoff p.toList) := by
    simp
  have hhalt : haltOf p.toList = .unmatchedClose (cutoff p.toList) := if_pos h
  have hhalt' : haltOf (p.toList.take (cutoff p.toList)) = .endOfCommands (cutoff p.toList) := by
    rw [haltOf, hcutoff, List.length_take, Nat.min_eq_left (Nat.le_of_lt h),
      if_neg (Nat.lt_irrefl _)]
  refine ⟨_, _, _, _, (run_start p canvas).trans (by rw [hhalt]), rfl, starts_of_cutoff_lt h, rfl,
    (run_start _ canvas).trans (by rw [hextract, hhalt']), ?_⟩
  rw [look_place, look_place, hunroll]

/-- A program in which no beginning has more `]` than `[` is run to its end. -/
theorem run_finished (canvas : Canvas) (h : ∀ k ≤ p.size, 0 ≤ depth p.toList k) :
    ∃ steps last, (start p canvas).run = (steps, .endOfCommands p.size, last) ∧
      last.index = p.size := by
  rw [← Array.length_toList] at h
  have hcutoff := cutoff_eq_length h
  have hhalt : haltOf p.toList = .endOfCommands p.size := by
    rw [haltOf, hcutoff, if_neg (Nat.lt_irrefl _), Array.length_toList]
  refine ⟨_, _, (run_start p canvas).trans (by rw [hhalt]), ?_⟩
  change ((cutoff p.toList : ℕ) : ℤ) = p.size
  rw [hcutoff, Array.length_toList]

/-- The end of the program is reported exactly when the cursor is there. -/
theorem Orderly.end_iff (h : Orderly p m) :
    (∃ j, m.step.1 = .error (.endOfCommands j)) ↔ p.size ≤ m.index := by
  constructor
  · rintro ⟨j, hj⟩
    have hstep : m.step = (.error (.endOfCommands j), m.step.2) := Prod.ext hj rfl
    obtain ⟨-, ⟨-, hindex⟩ | ⟨u, hu, -⟩⟩ := h.halt_cases hstep
    · exact hindex.ge
    · cases hu
  · intro hge
    obtain ⟨s, i, starts, fired, rfl, -⟩ := h
    exact ⟨i, congrArg Prod.fst (step_finished hge)⟩

/-- A machine that a run meets and that is refused a step stands at the end of the program or at
the end of its shortest beginning with more `]` than `[`. -/
theorem Walk.refused (h : Walk (start p canvas) ms m) (hhalt : m.step = (.error halt, last)) :
    (halt = .endOfCommands m.index ∨
      ∃ u : ℕ, halt = .unmatchedClose u ∧ m.index = u ∧
        depth p.toList (u + 1) < 0 ∧ ∀ k ≤ u, 0 ≤ depth p.toList k) ∧
    last = m := by
  obtain ⟨rfl, ⟨rfl, hindex⟩ | ⟨u, rfl, hindex, hstray, -⟩⟩ := h.orderly.halt_cases hhalt
  · exact ⟨.inl (by rw [hindex]), rfl⟩
  · obtain ⟨-, hcut⟩ := h.halt_eq hhalt
    obtain rfl : u = cutoff p.toList := Int.ofNat_inj.mp (hindex.symm.trans hcut)
    exact ⟨.inr ⟨_, rfl, hindex, depth_cutoff hstray.lt_length⟩, rfl⟩

/-- A run is stopped by a `]` exactly if some beginning of the program has more `]` than `[`, at the
last position of the shortest one, with the easel that the program before it leaves.  Otherwise it
gets to the end.  A machine that a run meets refuses a step at these two places only, and then it
stays as it is and refuses every later step. -/
theorem run_halts (p : Array Char) (canvas : Canvas) :
    ((∃ u, (start p canvas).run.2.1 = .unmatchedClose u) ↔
      ∃ k ≤ p.size, depth p.toList k < 0) ∧
    (∀ u : ℕ, depth p.toList (u + 1) < 0 → (∀ k ≤ u, 0 ≤ depth p.toList k) →
      ∃ steps last steps' last',
        (start p canvas).run = (steps, .unmatchedClose u, last) ∧
        last.index = u ∧ last.starts = [] ∧ last.fired = [] ∧
        (start (p.extract 0 u) canvas).run = (steps', .endOfCommands u, last') ∧
        last.look = last'.look) ∧
    ((∀ k ≤ p.size, 0 ≤ depth p.toList k) →
      ∃ steps last, (start p canvas).run = (steps, .endOfCommands p.size, last) ∧
        last.index = p.size) ∧
    ∀ ms m, Walk (start p canvas) ms m →
      ((∃ j, m.step.1 = .error (.endOfCommands j)) ↔ p.size ≤ m.index) ∧
      ∀ halt last, m.step = (.error halt, last) →
        (halt = .endOfCommands m.index ∨
          ∃ u : ℕ, halt = .unmatchedClose u ∧ m.index = u ∧
            depth p.toList (u + 1) < 0 ∧ ∀ k ≤ u, 0 ≤ depth p.toList k) ∧
        last = m ∧ ∀ n, ((fun m => m.step.2)^[n] m).step = (.error halt, m) := by
  refine ⟨?_, ?_, run_finished canvas, ?_⟩
  · rw [run_start, ← Array.length_toList]
    exact exists_haltOf_eq_unmatchedClose_iff
  · intro u hneg hbefore
    -- the shortest beginning with more `]` than `[` ends at the first stray `]`
    obtain ⟨hstray, hfirst⟩ := isStray_of_neg hneg hbefore
    have hlt := hstray.lt_length
    obtain rfl := cutoff_eq_of_isStray hstray hfirst
    exact run_stray canvas (by rwa [Array.length_toList] at hlt)
  · intro ms m hwalk
    refine ⟨hwalk.orderly.end_iff, ?_⟩
    intro halt last hhalt
    obtain ⟨hreason, rfl⟩ := hwalk.refused hhalt
    exact ⟨hreason, rfl, step_iterate_of_error hhalt⟩

/-- `[C]]F` is stopped at its second `]`, and a machine at the end of `C` stays there. -/
theorem run_halts_second_close :
    (∃ steps last, (start #['[', 'C', ']', ']', 'F']
        (.blank 1 1 Nat.one_pos Nat.one_pos .black)).run = (steps, .unmatchedClose 3, last) ∧
      last.index = 3 ∧ last.starts = [] ∧ last.fired = []) ∧
    ∃ ms m, Walk (start #['C'] (.blank 1 1 Nat.one_pos Nat.one_pos .black)) ms m ∧
      m.step = (.error (.endOfCommands 1), m) ∧
      ∀ n, ((fun m => m.step.2)^[n] m).step = (.error (.endOfCommands 1), m) := by
  constructor
  · obtain ⟨steps, last, -, -, hrun, hindex, hstarts, hfired, -⟩ :=
      (run_halts #['[', 'C', ']', ']', 'F'] (.blank 1 1 Nat.one_pos Nat.one_pos .black)).2.1 3
        (by decide) (by decide)
    exact ⟨steps, last, hrun, hindex, hstarts, hfired⟩
  · have hwalk : Walk (start #['C'] (.blank 1 1 Nat.one_pos Nat.one_pos .black)) _
        (place _ (Easel.centered (.blank 1 1 Nat.one_pos Nat.one_pos .black)).changeColor 1 [] []) :=
      .single rfl
    have hstays := ((run_halts _ _).2.2.2 _ _ hwalk).2 (.endOfCommands 1) _ rfl
    exact ⟨_, _, hwalk, rfl, hstays.2.2⟩

end Machine

end LoopPainter
