import LoopPainter.Machine

/-!
# Running the loop machine to its end

`follow` steps a machine until it halts and shows every step to an observer;
`run` counts the steps.

## Strategy

A run ends because `remaining` goes down with every step: a step that moves on
brings the cursor closer to the end, and a jump fires one closing bracket while
only brackets before it can be re-armed.  Reading the closing brackets at or after
the cursor that have not fired as the digits of a binary number, the later the
more significant, a jump clears a digit and changes only less significant ones
(`pending_lt_of_fire`).  Nothing is assumed about the cursor, the open loops or
the fired positions, so this also holds of a machine whose state was set by hand.
-/

namespace LoopPainter

namespace Machine

/-! ## The bound -/

/-- The positions at which the cursor reads a closing bracket, in ascending order. -/
def closes (commands : Array Char) : List Int :=
  ((List.range (2 * commands.size)).map fun (k : Nat) => (k : Int) - commands.size).filter
    fun i => commands[(i % commands.size).toNat]? == some ']'

/-- The closing brackets at or after the cursor that have not fired, read as a binary
number with the least significant digit first. -/
def pending (index : Int) (fired : List Int) : List Int → Nat
  | [] => 0
  | b :: bs => (if index ≤ b ∧ b ∉ fired then 1 else 0) + 2 * pending index fired bs

/-- A bound on the number of steps that a machine can still take. -/
def remaining (m : Machine) : Nat :=
  (2 * m.commands.size + 1) * pending m.index m.fired (closes m.commands) +
    min ((m.commands.size : Int) - m.index).toNat (2 * m.commands.size)

theorem pending_le {index index' : Int} {fired fired' : List Int} {bs : List Int}
    (h : ∀ b ∈ bs, index' ≤ b ∧ b ∉ fired' → index ≤ b ∧ b ∉ fired) :
    pending index' fired' bs ≤ pending index fired bs := by
  induction bs with
  | nil => exact Nat.le_refl _
  | cons b bs ih =>
    have htail := ih fun c hc => h c (List.mem_cons_of_mem _ hc)
    have hhead := h b List.mem_cons_self
    unfold pending
    by_cases hb : index' ≤ b ∧ b ∉ fired'
    · rw [if_pos hb, if_pos (hhead hb)]
      omega
    · rw [if_neg hb]
      omega

/-- Firing the bracket under the cursor lowers the number, wherever the cursor goes. -/
theorem pending_lt_of_fire {index index' : Int} {fired : List Int} {bs : List Int}
    (hsorted : bs.Pairwise (· < ·)) (hmem : index ∈ bs) (hfired : index ∉ fired) :
    pending index' (index :: fired) bs < pending index fired bs := by
  induction bs with
  | nil => exact absurd hmem List.not_mem_nil
  | cons b bs ih =>
    obtain ⟨hb, htail⟩ := List.pairwise_cons.mp hsorted
    unfold pending
    rcases List.mem_cons.mp hmem with heq | hin
    · have hle : pending index' (index :: fired) bs ≤ pending index fired bs := by
        refine pending_le fun c hc hpend => ⟨?_, ?_⟩
        · have := hb c hc
          omega
        · exact fun hcf => hpend.2 (List.mem_cons_of_mem _ hcf)
      rw [if_neg (by simp [heq]), if_pos ⟨by omega, heq ▸ hfired⟩]
      omega
    · have hlt := ih htail hin
      split <;> omega

theorem pairwise_closes (commands : Array Char) : (closes commands).Pairwise (· < ·) := by
  refine List.Pairwise.filter _ ?_
  rw [List.pairwise_map]
  exact List.pairwise_lt_range.imp fun h => by omega

theorem mem_closes_of_current {m : Machine} (h : m.current? = some ']') :
    m.index ∈ closes m.commands := by
  unfold current? at h
  unfold closes
  have hpos : 0 < m.commands.size := by
    rcases Nat.eq_zero_or_pos m.commands.size with h0 | hp
    · simp [h0] at h
    · exact hp
  split at h
  · next hnonneg =>
    have hlt : m.index.toNat < m.commands.size := by
      refine Nat.lt_of_not_le fun hge => ?_
      rw [Array.getElem?_eq_none hge] at h
      exact absurd h (by simp)
    refine List.mem_filter.mpr ⟨List.mem_map.mpr ⟨m.index.toNat + m.commands.size, ?_, ?_⟩, ?_⟩
    · exact List.mem_range.mpr (by omega)
    · omega
    · rw [Int.emod_eq_of_lt hnonneg (by omega), h]
      rfl
  · next hneg =>
    split at h
    · next hge =>
      refine List.mem_filter.mpr
        ⟨List.mem_map.mpr ⟨(m.index + m.commands.size).toNat, ?_, ?_⟩, ?_⟩
      · exact List.mem_range.mpr (by omega)
      · omega
      · rw [← Int.add_emod_right, Int.emod_eq_of_lt (by omega) (by omega), h]
        rfl
    · exact absurd h (by simp)

/-- A step that moves the cursor on by one, without arming a bracket it has yet to reach. -/
theorem remaining_lt_of_moveOn {m m' : Machine} (hc : m'.commands = m.commands)
    (hi : m'.index = m.index + 1) (hlt : m.index < m.commands.size)
    (hge : -(m.commands.size : Int) ≤ m.index)
    (hf : ∀ b, m.index < b → b ∉ m'.fired → b ∉ m.fired) : m'.remaining < m.remaining := by
  have hp : pending m'.index m'.fired (closes m.commands) ≤
      pending m.index m.fired (closes m.commands) :=
    pending_le fun b _ hb => ⟨by omega, hf b (by omega) hb.2⟩
  have hmul := Nat.mul_le_mul_left (2 * m.commands.size + 1) hp
  unfold remaining
  rw [hc]
  omega

/-- A jump from the bracket under the cursor. -/
theorem remaining_lt_of_jump {m m' : Machine} (hc : m'.commands = m.commands)
    (hcur : m.current? = some ']') (hfired : m.index ∉ m.fired)
    (hf : m'.fired = m.index :: m.fired) : m'.remaining < m.remaining := by
  have hp : pending m'.index m'.fired (closes m.commands) <
      pending m.index m.fired (closes m.commands) := by
    rw [hf]
    exact pending_lt_of_fire (pairwise_closes _) (mem_closes_of_current hcur) hfired
  have hmul := Nat.mul_le_mul_left (2 * m.commands.size + 1) hp
  unfold remaining
  rw [hc]
  rw [Nat.mul_succ] at hmul
  omega

theorem le_index_of_current {m : Machine} {c : Char} (h : m.current? = some c) :
    -(m.commands.size : Int) ≤ m.index := by
  unfold current? at h
  split at h
  · omega
  · split at h
    · assumption
    · exact absurd h (by simp)

/-- Every step that is taken brings the run closer to its end. -/
theorem remaining_lt_of_step {m m' : Machine} {e : Event} (h : m.step = (.ok e, m')) :
    m'.remaining < m.remaining := by
  unfold step at h
  split at h
  · exact absurd h (by simp)
  next hdone =>
  have hlt : m.index < m.commands.size := by
    simp only [done, decide_eq_true_eq, Int.not_le] at hdone
    exact hdone
  split at h
  · exact absurd h (by simp)
  · next hc =>
    cases h
    exact remaining_lt_of_moveOn rfl rfl hlt (le_index_of_current hc) fun _ _ hb => hb
  · next hc =>
    cases h
    exact remaining_lt_of_moveOn rfl rfl hlt (le_index_of_current hc) fun _ _ hb => hb
  · next hc =>
    dsimp only at h
    split at h
    · cases h
      exact remaining_lt_of_moveOn rfl rfl hlt (le_index_of_current hc) fun _ _ hb => hb
    · exact absurd h (by simp)
  · next hc =>
    cases h
    exact remaining_lt_of_moveOn rfl rfl hlt (le_index_of_current hc) fun _ _ hb => hb
  · next hc =>
    cases h
    exact remaining_lt_of_moveOn rfl rfl hlt (le_index_of_current hc) fun _ _ hb => hb
  · next hc =>
    split at h
    · cases h
      refine remaining_lt_of_moveOn rfl rfl hlt (le_index_of_current hc) fun b hb hnot hin => ?_
      exact hnot ((List.mem_erase_of_ne (by omega)).mpr hin)
    · next hfired =>
      split at h
      · exact absurd h (by simp)
      · cases h
        exact remaining_lt_of_jump rfl hc hfired rfl
  · next c _ _ _ _ _ _ hc =>
    cases h
    exact remaining_lt_of_moveOn rfl rfl hlt (le_index_of_current hc) fun _ _ hb => hb

/-! ## Runs -/

/-- Step until the machine halts, letting `note` see each event and the machine after it. -/
def follow {α : Type} (note : α → Event → Machine → α) (acc : α) (m : Machine) :
    α × Halt × Machine :=
  match _h : m.step with
  | (.error halt, m') => (acc, halt, m')
  | (.ok event, m') => follow note (note acc event m') m'
termination_by m.remaining
decreasing_by exact remaining_lt_of_step ‹_›

/-- Step until the machine halts, counting the steps. -/
def run (m : Machine) : Nat × Halt × Machine :=
  follow (fun n _ _ => n + 1) 0 m

/-- Step until the machine halts, counting the pauses. -/
def countPauses (m : Machine) : Nat × Halt × Machine :=
  follow (fun n event _ => if event = .pause then n + 1 else n) 0 m

/-- The first steps, at most `n`, each as `view` shows its event and the machine after it,
and the halt if one came. -/
def trace {β : Type} (view : Event → Machine → β) :
    (n : Nat) → Machine → List β × Option Halt × Machine
  | 0, m => ([], none, m)
  | n + 1, m =>
    match m.step with
    | (.error halt, m') => ([], some halt, m')
    | (.ok event, m') =>
      let seen := view event m'
      let (rest, halt, last) := trace view n m'
      (seen :: rest, halt, last)

end Machine

end LoopPainter
