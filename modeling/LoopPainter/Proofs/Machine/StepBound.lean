import LoopPainter.Proofs.Machine.Walk
import Mathlib.Algebra.Group.Nat.Defs
import Mathlib.Data.List.Basic

/-!
# How many steps a machine can take

The cursor, the stack and the fired positions of a machine may have been set by hand, to loop
starts that no `[` has pushed and to jumps that go forward.  A bound on its steps can therefore not
speak of loops.  It follows from the closing brackets alone, here for a cursor that reads the
program from the front.

Between two jumps the cursor moves on, so with `n` characters there is a jump at least in every `n`
steps.  A `]` that has jumped must be passed before it jumps again, and from behind it the cursor
comes back only by the jump of a later `]`.  Reading the closing brackets that are still ahead and
have not fired as a binary number, the last one as the most significant digit, every jump lowers
that number (`pending_lt_of_fire`), and with `m` closing brackets it starts below `2 ^ m`
(`pending_lt_two_pow`).  `stepsLeft` counts `n` steps for each unit of it, and those to the end of
the program: each step lowers `stepsLeft` (`stepsLeft_lt_of_step`), so there are at most
`n * 2 ^ m` steps.
-/

namespace LoopPainter.Machine

variable {m next last : Machine} {ms : List Machine} {e : Event} {i : ℤ} {fired bs : List ℤ}

/-! ## The closing brackets ahead as a number -/

theorem pending_lt_two_pow (i : ℤ) (fired bs : List ℤ) :
    pending i fired bs < 2 ^ bs.length := by
  induction bs with
  | nil => exact Nat.one_pos
  | cons b bs ih =>
      rw [pending, List.length_cons, Nat.pow_succ]
      split <;> omega

/-- The positions of the closing brackets, from the front. -/
def closings (p : Array Char) : List ℤ :=
  (p.toList.idxsOf ']').map Nat.cast

theorem length_closings (p : Array Char) : (closings p).length = p.count ']' := by
  rw [closings, List.length_map, List.length_idxsOf, Array.count_toList]

theorem pairwise_closings (p : Array Char) : (closings p).Pairwise (· < ·) := by
  rw [closings, List.pairwise_map]
  exact List.pairwise_idxsOf.imp Int.ofNat_lt.mpr

theorem mem_closings_of_current (hindex : 0 ≤ m.index) (hc : m.current? = some ']') :
    m.index ∈ closings m.commands := by
  rw [current?, if_pos hindex, ← Array.getElem?_toList] at hc
  obtain ⟨hlt, hget⟩ := List.getElem?_eq_some_iff.mp hc
  refine List.mem_map.mpr ⟨m.index.toNat, ?_, Int.toNat_of_nonneg hindex⟩
  exact List.mem_idxsOf_iff_exists_getElem_pos.mpr ⟨hlt, beq_iff_eq.mpr hget⟩

/-! ## The bound goes down -/

/-- The painter stands on the canvas, and no position on the stack or under the cursor is counted
from the end. -/
structure Forward (m : Machine) : Prop where
  inside : m.Inside
  index_nonneg : 0 ≤ m.index
  starts_nonneg : ∀ t ∈ m.starts, 0 ≤ t

theorem Forward.step (h : m.Forward) (hstep : m.step = (.ok e, next)) : next.Forward := by
  obtain ⟨hin, hindex, hstarts⟩ := h
  obtain ⟨s, -, -, houtcome⟩ := hin.outcome
  rw [hstep] at houtcome
  cases houtcome with
  | plain _ _ => exact ⟨inside_place, Int.le_add_one hindex, hstarts⟩
  | opening _ =>
      refine ⟨inside_place, Int.le_add_one hindex, ?_⟩
      exact List.forall_mem_cons.mpr ⟨Int.le_add_one hindex, hstarts⟩
  | passing _ _ => exact ⟨inside_place, Int.le_add_one hindex, hstarts⟩
  | jumping _ _ heq =>
      rw [heq] at hstarts
      obtain ⟨htop, hrest⟩ := List.forall_mem_cons.mp hstarts
      exact ⟨inside_place, htop, hrest⟩

/-- A bound on the steps that are left. -/
def stepsLeft (m : Machine) : ℕ :=
  m.commands.size * pending m.index m.fired (closings m.commands) +
    ((m.commands.size : ℤ) - m.index).toNat

theorem stepsLeft_lt_of_moveOn (hc : next.commands = m.commands) (hi : next.index = m.index + 1)
    (hlt : m.index < m.commands.size) (hf : ∀ b, m.index < b → b ∉ next.fired → b ∉ m.fired) :
    next.stepsLeft < m.stepsLeft := by
  have hpending : pending next.index next.fired (closings m.commands) ≤
      pending m.index m.fired (closings m.commands) := by
    apply pending_le
    intro b _ hb
    exact ⟨by omega, hf b (by omega) hb.2⟩
  have hmul := Nat.mul_le_mul_left m.commands.size hpending
  unfold stepsLeft
  rw [hc]
  omega

theorem stepsLeft_lt_of_jump (hc : next.commands = m.commands) (hindex : 0 ≤ next.index)
    (hlt : m.index < m.commands.size) (hmem : m.index ∈ closings m.commands)
    (hfired : m.index ∉ m.fired) (hf : next.fired = m.index :: m.fired) :
    next.stepsLeft < m.stepsLeft := by
  have hpending : pending next.index next.fired (closings m.commands) <
      pending m.index m.fired (closings m.commands) := by
    rw [hf]
    exact pending_lt_of_fire (pairwise_closings _) hmem hfired
  -- the jump may lead to the front, which is paid for by one unit of the number
  have hmul := Nat.mul_le_mul_left m.commands.size hpending
  rw [Nat.mul_succ] at hmul
  unfold stepsLeft
  rw [hc]
  omega

theorem lt_size_of_step (hstep : m.step = (.ok e, next)) : m.index < m.commands.size := by
  by_contra hge
  have hdone : m.done = true := decide_eq_true (Int.not_lt.mp hge)
  rw [Machine.step, if_pos hdone] at hstep
  exact absurd hstep (by simp)

theorem Forward.stepsLeft_lt_of_step (h : m.Forward) (hstep : m.step = (.ok e, next)) :
    next.stepsLeft < m.stepsLeft := by
  have hlt := lt_size_of_step hstep
  have hnext := h.step hstep
  obtain ⟨s, -, hplace, houtcome⟩ := h.inside.outcome
  rw [hstep] at houtcome
  cases houtcome with
  | plain _ _ => exact stepsLeft_lt_of_moveOn rfl rfl hlt fun _ _ hb => hb
  | opening _ => exact stepsLeft_lt_of_moveOn rfl rfl hlt fun _ _ hb => hb
  | passing _ _ =>
      refine stepsLeft_lt_of_moveOn rfl rfl hlt ?_
      intro b hb hnot hmem
      exact hnot ((List.mem_erase_of_ne (by omega)).mpr hmem)
  | jumping hc hfired _ =>
      rw [← hplace] at hc
      have hmem := mem_closings_of_current h.index_nonneg hc
      exact stepsLeft_lt_of_jump rfl hnext.index_nonneg hlt hmem hfired rfl

theorem Forward.stepsLeft_le (h : m.Forward) :
    m.stepsLeft ≤ m.commands.size * 2 ^ m.commands.count ']' := by
  have hpow := pending_lt_two_pow m.index m.fired (closings m.commands)
  rw [length_closings] at hpow
  have hindex := h.index_nonneg
  calc m.stepsLeft
      ≤ m.commands.size * pending m.index m.fired (closings m.commands) + m.commands.size := by
        unfold stepsLeft
        omega
    _ = m.commands.size * (pending m.index m.fired (closings m.commands) + 1) :=
        (Nat.mul_succ _ _).symm
    _ ≤ m.commands.size * 2 ^ m.commands.count ']' := Nat.mul_le_mul_left _ hpow

/-! ## Runs from a state set by hand -/

theorem Walk.length_add_stepsLeft_le (h : Walk m ms last) (hm : m.Forward) :
    ms.length + last.stepsLeft ≤ m.stepsLeft := by
  induction h with
  | stay m => exact Nat.le_of_eq (Nat.zero_add _)
  | step hstep _ ih =>
      have hlt := hm.stepsLeft_lt_of_step hstep
      have hrest := ih (hm.step hstep)
      rw [List.length_cons]
      omega

theorem Walk.forward (h : Walk m ms last) (hm : m.Forward) : last.Forward :=
  (h.invariant hm Forward.step).1

/-- A machine that refuses a step stands behind the program, or at a `]` that has not fired with
an empty stack, and stays as it is. -/
theorem Forward.halt_cases {halt : Halt} (h : m.Forward) (hhalt : m.step = (.error halt, last)) :
    last = m ∧ ((halt = .endOfCommands m.index ∧ m.commands.size ≤ m.index) ∨
      (halt = .unmatchedClose m.index ∧ m.current? = some ']' ∧ m.starts = [] ∧
        m.index ∉ m.fired)) := by
  obtain ⟨s, -, hplace, houtcome⟩ := h.inside.outcome
  rw [hhalt] at houtcome
  generalize hlast : last = m' at houtcome
  cases houtcome with
  | stray hc hfired hstarts =>
      rw [← hplace] at hc
      exact ⟨hplace.symm, .inr ⟨rfl, hc, hstarts, hfired⟩⟩
  | finished hge => exact ⟨hplace.symm, .inl ⟨rfl, hge⟩⟩
  | unreadable hlt hc =>
      have hindex := h.index_nonneg
      rw [← hplace, current?, if_pos hindex, Array.getElem?_eq_none_iff] at hc
      omega

/-- However the cursor, the stack and the fired positions were set, as long as no position is
negative: with `n` characters, `m` of them `]`, no more than `n * 2 ^ m` steps are taken in a row,
and a run comes to its end within that many, behind the program or at a `]` with an empty stack. -/
theorem steps_le_size_mul_two_pow (m : Machine) (hin : m.Inside) (hindex : 0 ≤ m.index)
    (hstarts : ∀ t ∈ m.starts, 0 ≤ t) :
    (∀ ms last, Walk m ms last → ms.length ≤ m.commands.size * 2 ^ m.commands.count ']') ∧
    ∃ steps halt last,
      m.run = (steps, halt, last) ∧ steps ≤ m.commands.size * 2 ^ m.commands.count ']' ∧
      ((halt = .endOfCommands last.index ∧ m.commands.size ≤ last.index) ∨
        (halt = .unmatchedClose last.index ∧ last.current? = some ']' ∧ last.starts = [] ∧
          last.index ∉ last.fired)) := by
  have hm : m.Forward := ⟨hin, hindex, hstarts⟩
  have hbound : ∀ ms last, Walk m ms last →
      ms.length ≤ m.commands.size * 2 ^ m.commands.count ']' := by
    intro ms last hwalk
    have hleft := hwalk.length_add_stepsLeft_le hm
    have hle := hm.stepsLeft_le
    omega
  refine ⟨hbound, ?_⟩
  obtain ⟨ms, m', halt, last, hwalk, hhalt⟩ := exists_walk_halted m
  obtain ⟨rfl, hcases⟩ := (hwalk.forward hm).halt_cases hhalt
  refine ⟨ms.length, halt, last, run_of_walk hwalk hhalt, hbound _ _ hwalk, ?_⟩
  rwa [(hwalk.inside hin).2.1] at hcases

/-- `F]S]` with the cursor on its first `]`, a stack whose top leads forward to the second `]`, and
a fired position behind the end. -/
theorem steps_le_of_forward_start :
    (∀ ms last,
      Walk (place #['F', ']', 'S', ']'] (.centered (.blank 2 1 Nat.two_pos Nat.one_pos .black))
        1 [3, 0] [7]) ms last → ms.length ≤ 16) ∧
    ∃ steps halt last,
      (place #['F', ']', 'S', ']'] (.centered (.blank 2 1 Nat.two_pos Nat.one_pos .black))
        1 [3, 0] [7]).run = (steps, halt, last) ∧ steps ≤ 16 ∧
      ((halt = .endOfCommands last.index ∧ 4 ≤ last.index) ∨
        (halt = .unmatchedClose last.index ∧ last.current? = some ']' ∧ last.starts = [] ∧
          last.index ∉ last.fired)) :=
  steps_le_size_mul_two_pow _ inside_place (by decide) (by decide)

end LoopPainter.Machine
