import LoopPainter.Proofs.Brackets.Entered
import LoopPainter.Proofs.Machine.Walk
import Mathlib.Data.List.Sort
import Mathlib.Data.Set.BooleanAlgebra
import Mathlib.Order.CompletePartialOrder

/-!
# What the open loops and the fired brackets mean

The machine keeps a stack of loop starts and a set of fired positions, and changes
them at different brackets.  Only together they say in which loops the cursor stands
and in which pass of each: a loop in its first pass is on the stack, a loop in its
second pass has fired.  `LoopState` states this, with the standard matching of the
brackets as its measure, and one lemma for every kind of step keeps it.

At a `]` that jumps, the invariant makes the top of the stack the start of the loop
that this `]` closes (`LoopState.jumping`): any loop that was opened later was also
closed before.  At a `]` that halts the machine it gives that nothing is open and
nothing has fired (`LoopState.stray`).
-/

namespace LoopPainter.Machine

open Brackets

variable {l : List Char} {i : ℕ} {starts fired : List ℤ}

/-- The entered loops of a cursor at `i` are on the stack in their first pass and have fired in
their second. -/
structure LoopState (l : List Char) (i : ℕ) (starts fired : List ℤ) : Prop where
  le_length : i ≤ l.length
  sorted : starts.Pairwise (· > ·)
  nodup : fired.Nodup
  start_entered : ∀ t ∈ starts, ∃ o ∈ entered l i,
    t = o + 1 ∧ ∀ c, Partner l o c → (c : ℤ) ∉ fired
  fired_entered : ∀ f ∈ fired, ∃ o ∈ entered l i, ∃ c, Partner l o c ∧ f = c
  covered : ∀ o ∈ entered l i,
    (o : ℤ) + 1 ∈ starts ∨ ∃ c, Partner l o c ∧ (c : ℤ) ∈ fired
  count : (starts.length + fired.length : ℤ) = depth l i

theorem initial_loopState (l : List Char) : LoopState l 0 [] [] where
  le_length := Nat.zero_le _
  sorted := .nil
  nodup := .nil
  start_entered := by simp
  fired_entered := by simp
  covered := fun o h => absurd h not_mem_entered_zero
  count := by simp

namespace LoopState

/-- A character that is no bracket. -/
theorem plain (h : LoopState l i starts fired) (hlt : i < l.length) (hopen : l[i]? ≠ some '[')
    (hclose : l[i]? ≠ some ']') : LoopState l (i + 1) starts fired := by
  have hentered := entered_succ_of_ne hopen hclose
  refine ⟨hlt, h.sorted, h.nodup, ?_, ?_, ?_, ?_⟩
  · rw [hentered]; exact h.start_entered
  · rw [hentered]; exact h.fired_entered
  · rw [hentered]; exact h.covered
  · rw [depth_succ_of_ne hopen hclose]; exact h.count

/-- A `[` goes on the stack. -/
theorem opening (h : LoopState l i starts fired) (hopen : l[i]? = some '[') :
    LoopState l (i + 1) (((i : ℤ) + 1) :: starts) fired := by
  have hentered : ∀ o, o ∈ entered l (i + 1) ↔ o ∈ entered l i ∨ o = i := fun _ =>
    mem_entered_succ_of_open hopen
  have hlt := (List.getElem?_eq_some_iff.mp hopen).1
  refine ⟨hlt, List.pairwise_cons.mpr ⟨?_, h.sorted⟩, h.nodup, ?_, ?_, ?_, ?_⟩
  · intro t ht
    obtain ⟨o, ho, rfl, -⟩ := h.start_entered t ht
    have := ho.1
    omega
  · intro t ht
    rcases List.mem_cons.mp ht with rfl | ht
    · refine ⟨i, (hentered i).mpr (.inr rfl), rfl, ?_⟩
      -- only an entered loop can have fired, and this one was not entered before
      intro c hpartner hc
      obtain ⟨o, ho, c', hpartner', hcast⟩ := h.fired_entered _ hc
      obtain rfl : c = c' := by omega
      obtain rfl := hpartner.open_unique hpartner'
      exact absurd ho.1 (Nat.lt_irrefl i)
    · obtain ⟨o, ho, heq⟩ := h.start_entered t ht
      exact ⟨o, (hentered o).mpr (.inl ho), heq⟩
  · intro f hf
    obtain ⟨o, ho, hrest⟩ := h.fired_entered f hf
    exact ⟨o, (hentered o).mpr (.inl ho), hrest⟩
  · intro o ho
    rcases (hentered o).mp ho with ho | rfl
    · exact (h.covered o ho).imp (List.mem_cons_of_mem _) id
    · exact .inl List.mem_cons_self
  · have := h.count
    rw [depth_succ_of_open hopen, List.length_cons]
    push_cast
    omega

/-- A `]` that has fired leaves its loop. -/
theorem passing (h : LoopState l i starts fired) (hclose : l[i]? = some ']')
    (hfired : (i : ℤ) ∈ fired) : LoopState l (i + 1) starts (fired.erase i) := by
  obtain ⟨o, ho, c, hpartner, hcast⟩ := h.fired_entered _ hfired
  obtain rfl : i = c := by omega
  -- behind the `]` its loop is no longer entered, and nothing else changes
  have hentered : ∀ q, q ∈ entered l (i + 1) ↔ q ∈ entered l i ∧ q ≠ o := fun _ =>
    hpartner.mem_entered_succ_iff
  have hlt := (List.getElem?_eq_some_iff.mp hclose).1
  refine ⟨hlt, h.sorted, h.nodup.erase _, ?_, ?_, ?_, ?_⟩
  · intro t ht
    obtain ⟨q, hq, heq, hnot⟩ := h.start_entered t ht
    refine ⟨q, (hentered q).mpr ⟨hq, ?_⟩, heq, ?_⟩
    · rintro rfl
      exact hnot i hpartner hfired
    · intro c' hc' hmem
      exact hnot c' hc' (List.mem_of_mem_erase hmem)
  · intro f hf
    obtain ⟨hne, hf⟩ := h.nodup.mem_erase_iff.mp hf
    obtain ⟨q, hq, c', hpartner', rfl⟩ := h.fired_entered f hf
    refine ⟨q, (hentered q).mpr ⟨hq, ?_⟩, c', hpartner', rfl⟩
    rintro rfl
    exact hne (by rw [hpartner.close_unique hpartner'])
  · intro q hq
    obtain ⟨hq, hne⟩ := (hentered q).mp hq
    refine (h.covered q hq).imp id fun ⟨c', hpartner', hmem⟩ => ⟨c', hpartner', ?_⟩
    refine h.nodup.mem_erase_iff.mpr ⟨fun heq => hne ?_, hmem⟩
    -- another loop with the same `]` would be the same loop
    obtain rfl : c' = i := by omega
    exact hpartner'.open_unique hpartner
  · have hcount := h.count
    have hlen := List.length_erase_of_mem hfired
    have hpos := List.length_pos_of_mem hfired
    rw [depth_succ_of_close hclose, hlen]
    omega

/-- A `]` that has not fired and finds nothing on the stack has no partner, and nothing has
fired. -/
theorem stray (h : LoopState l i [] fired) (hclose : l[i]? = some ']')
    (hfired : (i : ℤ) ∉ fired) : IsStray l i ∧ fired = [] := by
  have hstray : IsStray l i := by
    refine ⟨hclose, ?_⟩
    intro o _ hpartner
    rcases h.covered o hpartner.mem_entered with hmem | ⟨c, hpartner', hmem⟩
    · exact absurd hmem List.not_mem_nil
    · rw [hpartner'.close_unique hpartner] at hmem
      exact hfired hmem
  refine ⟨hstray, List.eq_nil_iff_forall_not_mem.mpr ?_⟩
  intro f hf
  obtain ⟨o, ho, -⟩ := h.fired_entered f hf
  rw [hstray.entered_eq_empty] at ho
  exact ho

/-- A `]` that has not fired and finds something on the stack finds the start of its own loop on
top. -/
theorem top_partner {t : ℤ} (h : LoopState l i (t :: starts) fired) (hclose : l[i]? = some ']')
    (hfired : (i : ℤ) ∉ fired) : ∃ o : ℕ, Partner l o i ∧ t = o + 1 := by
  obtain ⟨q, hq, ht, -⟩ := h.start_entered t List.mem_cons_self
  have hstray : ¬ IsStray l i := by
    intro hstray
    rw [hstray.entered_eq_empty] at hq
    exact hq
  obtain ⟨o, hpartner⟩ : ∃ o, Partner l o i := by
    by_contra hnone
    exact hstray ⟨hclose, fun o _ hpartner => hnone ⟨o, hpartner⟩⟩
  have hmem : (o : ℤ) + 1 ∈ t :: starts := by
    refine (h.covered o hpartner.mem_entered).resolve_right fun ⟨c, hpartner', hc⟩ => ?_
    rw [hpartner'.close_unique hpartner] at hc
    exact hfired hc
  -- the top of the stack opened no earlier, and what is entered opened no later
  have hqo := hpartner.le_of_mem_entered hq
  have hot : (o : ℤ) + 1 ≤ t := by
    rcases List.mem_cons.mp hmem with heq | hmem
    · exact heq.le
    · exact ((List.pairwise_cons.mp h.sorted).1 _ hmem).le
  exact ⟨o, hpartner, by omega⟩

/-- A `]` that has not fired jumps behind its own `[`. -/
theorem jumping {o : ℕ} (h : LoopState l i (((o : ℤ) + 1) :: starts) fired)
    (hpartner : Partner l o i) (hfired : (i : ℤ) ∉ fired) :
    LoopState l (o + 1) starts (i :: fired) := by
  have hentered := entered_open_succ hpartner
  have hlt := hpartner.lt
  have hlen := h.le_length
  obtain ⟨htop, hsorted⟩ := List.pairwise_cons.mp h.sorted
  refine ⟨by omega, hsorted, List.nodup_cons.mpr ⟨hfired, h.nodup⟩, ?_, ?_, ?_, ?_⟩
  · intro t ht
    obtain ⟨q, hq, heq, hnot⟩ := h.start_entered t (List.mem_cons_of_mem _ ht)
    refine ⟨q, hentered ▸ hq, heq, ?_⟩
    intro c hc hmem
    rcases List.mem_cons.mp hmem with hci | hmem
    -- the loop that fires now was the top of the stack, and the stack has no start twice
    · obtain rfl : c = i := by omega
      obtain rfl := hc.open_unique hpartner
      have := htop t ht
      omega
    · exact hnot c hc hmem
  · intro f hf
    rw [hentered]
    rcases List.mem_cons.mp hf with rfl | hf
    · exact ⟨o, hpartner.mem_entered, i, hpartner, rfl⟩
    · exact h.fired_entered f hf
  · intro q hq
    rw [hentered] at hq
    rcases h.covered q hq with hmem | ⟨c, hc, hmem⟩
    · rcases List.mem_cons.mp hmem with heq | hmem
      · obtain rfl : q = o := by omega
        exact .inr ⟨i, hpartner, List.mem_cons_self⟩
      · exact .inl hmem
    · exact .inr ⟨c, hc, List.mem_cons_of_mem _ hmem⟩
  · have hcount := h.count
    rw [List.length_cons] at hcount
    rw [List.length_cons, ← hpartner.depth_close]
    push_cast at hcount ⊢
    omega

/-- At the end nothing has fired, and what is on the stack was never closed. -/
theorem finished (h : LoopState l l.length starts fired) :
    fired = [] ∧ starts.reverse = (unclosed l).map fun o : ℕ => (o : ℤ) + 1 := by
  have hfired : fired = [] := by
    refine List.eq_nil_iff_forall_not_mem.mpr ?_
    intro f hf
    obtain ⟨o, ho, c, hpartner, -⟩ := h.fired_entered f hf
    have := ho.2.2 c hpartner
    have := hpartner.close_lt_length
    omega
  refine ⟨hfired, ?_⟩
  have hmap : ((unclosed l).map fun o : ℕ => (o : ℤ) + 1).Pairwise (· < ·) :=
    List.pairwise_map.mpr ((pairwise_unclosed l).imp fun hlt => by omega)
  -- both lists are ascending, so it is enough that they have the same members
  refine (List.pairwise_reverse.mpr h.sorted).eq_of_mem_iff hmap ?_
  intro t
  rw [List.mem_reverse, List.mem_map]
  constructor
  · intro ht
    obtain ⟨o, ho, rfl, -⟩ := h.start_entered t ht
    exact ⟨o, mem_unclosed.mpr ho, rfl⟩
  · rintro ⟨o, ho, rfl⟩
    refine (h.covered o (mem_unclosed.mp ho)).resolve_right ?_
    rintro ⟨c, -, hc⟩
    rw [hfired] at hc
    exact List.not_mem_nil hc

end LoopState

/-! ## The invariant along a run -/

/-- A machine at a position of its program, with a painter on the canvas, whose open loops and
fired positions are those of the loops entered there. -/
def Orderly (p : Array Char) (m : Machine) : Prop :=
  ∃ (s : Easel) (i : ℕ) (starts fired : List ℤ),
    m = place p s i starts fired ∧ LoopState p.toList i starts fired

variable {p : Array Char} {canvas : Canvas} {m next last : Machine} {ms : List Machine}

theorem orderly_start (p : Array Char) (canvas : Canvas) : Orderly p (start p canvas) :=
  ⟨.centered canvas, 0, [], [], rfl, initial_loopState p.toList⟩

theorem Orderly.step {e : Event} (h : Orderly p m) (hstep : m.step = (.ok e, next)) :
    Orderly p next := by
  obtain ⟨s, i, starts, fired, rfl, hloops⟩ := h
  have houtcome := outcome_step p s i starts fired
  rw [hstep] at houtcome
  cases houtcome with
  | @plain c hc hne =>
      rw [current?_place, ← Array.getElem?_toList] at hc
      have hlt := (List.getElem?_eq_some_iff.mp hc).1
      have hopen : p.toList[i]? ≠ some '[' := by rw [hc]; simpa using hne.1
      have hclose : p.toList[i]? ≠ some ']' := by rw [hc]; simpa using hne.2
      exact ⟨_, i + 1, _, _, rfl, hloops.plain hlt hopen hclose⟩
  | opening hc =>
      rw [current?_place, ← Array.getElem?_toList] at hc
      exact ⟨_, i + 1, _, _, rfl, hloops.opening hc⟩
  | passing hc hfired =>
      rw [current?_place, ← Array.getElem?_toList] at hc
      exact ⟨_, i + 1, _, _, rfl, hloops.passing hc hfired⟩
  | jumping hc hfired hstarts =>
      rw [current?_place, ← Array.getElem?_toList] at hc
      subst hstarts
      obtain ⟨o, hpartner, rfl⟩ := hloops.top_partner hc hfired
      exact ⟨_, o + 1, _, _, rfl, hloops.jumping hpartner hfired⟩

theorem Walk.orderly (h : Walk (start p canvas) ms m) : Orderly p m :=
  (h.invariant (orderly_start p canvas) Orderly.step).1

/-- A jump goes behind the `[` that the `]` closes. -/
theorem Orderly.jump_eq {close t : ℤ} (h : Orderly p m)
    (hstep : m.step = (.ok (.jump close t), next)) :
    ∃ o c : ℕ, Partner p.toList o c ∧ m.index = c ∧ close = c ∧ t = o + 1 ∧ next.index = o + 1 := by
  obtain ⟨s, i, starts, fired, rfl, hloops⟩ := h
  have houtcome := outcome_step p s i starts fired
  rw [hstep] at houtcome
  generalize hevent : Event.jump close t = e at houtcome
  cases houtcome with
  | @plain c _ _ =>
      unfold eventOf at hevent
      split at hevent <;> cases hevent
  | opening _ => cases hevent
  | passing _ _ => cases hevent
  | jumping hc hfired hstarts =>
      rw [current?_place, ← Array.getElem?_toList] at hc
      subst hstarts
      obtain ⟨o, hpartner, rfl⟩ := hloops.top_partner hc hfired
      cases hevent
      exact ⟨o, i, hpartner, rfl, rfl, rfl, rfl⟩

/-- A machine that takes no step is left as it was.  It stands at the end of the program, or at a
`]` without partner with nothing open and nothing fired. -/
theorem Orderly.halt_cases {halt : Halt} (h : Orderly p m) (hstep : m.step = (.error halt, last)) :
    last = m ∧ ((halt = .endOfCommands p.size ∧ m.index = p.size) ∨
      ∃ u : ℕ, halt = .unmatchedClose u ∧ m.index = u ∧ IsStray p.toList u ∧ m.starts = [] ∧
        m.fired = []) := by
  obtain ⟨s, i, starts, fired, rfl, hloops⟩ := h
  have houtcome := outcome_step p s i starts fired
  rw [hstep] at houtcome
  cases houtcome with
  | stray hc hfired hstarts =>
      rw [current?_place, ← Array.getElem?_toList] at hc
      subst hstarts
      obtain ⟨hstray, hnil⟩ := hloops.stray hc hfired
      exact ⟨rfl, .inr ⟨i, rfl, rfl, hstray, rfl, hnil⟩⟩
  | finished hge =>
      have hle := hloops.le_length
      rw [Array.length_toList] at hle
      have heq : i = p.size := by omega
      exact ⟨rfl, .inl ⟨by rw [heq], congrArg Nat.cast heq⟩⟩
  | unreadable hlt hc =>
      rw [current?_place, Array.getElem?_eq_none_iff] at hc
      omega

/-- A run that is not stopped by a `]` without partner ends with nothing fired, and with the starts
of the loops that are never closed. -/
theorem run_start_loops {steps : ℕ} {j : ℤ}
    (h : (start p canvas).run = (steps, .endOfCommands j, last)) :
    last.fired = [] ∧
      last.starts.reverse = (unclosed p.toList).map fun o : ℕ => (o : ℤ) + 1 := by
  obtain ⟨ms, m, halt, last', hwalk, hhalt⟩ := exists_walk_halted (start p canvas)
  rw [run_of_walk hwalk hhalt] at h
  cases h
  have horderly := hwalk.orderly
  obtain ⟨rfl, ⟨-, hindex⟩ | ⟨u, hu, -⟩⟩ := horderly.halt_cases hhalt
  · obtain ⟨s, i, starts, fired, rfl, hloops⟩ := horderly
    obtain rfl : i = p.toList.length := by
      rw [Array.length_toList]
      exact Int.ofNat_inj.mp hindex
    exact hloops.finished
  · cases hu

/-! ## The loops of every machine that is met -/

/-- In every machine that a run meets, the loops entered at the cursor are those on the stack and
those that have fired, each in one of the two.  A jump goes behind the `[` of its own loop, and at
the end of the program nothing has fired. -/
theorem loops_of_walk (h : Walk (start p canvas) ms m) :
    ∃ i : ℕ, m.index = i ∧
      m.starts.reverse.Pairwise (· < ·) ∧ m.fired.Nodup ∧
      entered p.toList i = {o : ℕ | (o : ℤ) + 1 ∈ m.starts} ∪
        {o | ∃ c : ℕ, Partner p.toList o c ∧ (c : ℤ) ∈ m.fired} ∧
      Disjoint {o : ℕ | (o : ℤ) + 1 ∈ m.starts}
        {o | ∃ c : ℕ, Partner p.toList o c ∧ (c : ℤ) ∈ m.fired} ∧
      (∀ t ∈ m.starts, ∃ o : ℕ, t = o + 1) ∧
      (∀ f ∈ m.fired, ∃ o ∈ entered p.toList i, ∃ c, Partner p.toList o c ∧ f = c) ∧
      (∀ o ∈ entered p.toList i, (∀ c, ¬ Partner p.toList o c) → (o : ℤ) + 1 ∈ m.starts) ∧
      (m.starts.length + m.fired.length : ℤ) = depth p.toList i ∧
      (∀ close t next, m.step = (.ok (.jump close t), next) →
        ∃ o, Partner p.toList o i ∧ close = i ∧ t = o + 1 ∧ next.index = o + 1) ∧
      (∀ steps j last, (start p canvas).run = (steps, .endOfCommands j, last) →
        last.fired = [] ∧
          last.starts.reverse = (unclosed p.toList).map fun o : ℕ => (o : ℤ) + 1) := by
  have horderly := h.orderly
  obtain ⟨s, i, starts, fired, rfl, hloops⟩ := h.orderly
  refine ⟨i, rfl, List.pairwise_reverse.mpr hloops.sorted, hloops.nodup, ?_, ?_, ?_, ?_, ?_,
    hloops.count, ?_, fun _ _ _ => run_start_loops⟩
  · ext o
    -- a start or a fired `]` belongs to one loop only, so it tells that this loop is entered
    refine ⟨hloops.covered o, ?_⟩
    rintro (hmem | ⟨c, hpartner, hmem⟩)
    · obtain ⟨q, hq, heq, -⟩ := hloops.start_entered _ hmem
      obtain rfl : o = q := by omega
      exact hq
    · obtain ⟨q, hq, c', hpartner', heq⟩ := hloops.fired_entered _ hmem
      obtain rfl : c = c' := by omega
      rwa [hpartner.open_unique hpartner']
  -- a loop whose `]` has fired was taken from the stack
  · rw [Set.disjoint_left]
    rintro o hmem ⟨c, hpartner, hc⟩
    obtain ⟨q, hq, heq, hnot⟩ := hloops.start_entered _ hmem
    obtain rfl : o = q := by omega
    exact hnot c hpartner hc
  · intro t ht
    obtain ⟨o, -, heq, -⟩ := hloops.start_entered t ht
    exact ⟨o, heq⟩
  · exact hloops.fired_entered
  · intro o ho hnone
    exact (hloops.covered o ho).resolve_right fun ⟨c, hpartner, _⟩ => hnone c hpartner
  · intro close t next hstep
    obtain ⟨o, c, hpartner, hindex, hclose, hrest⟩ := horderly.jump_eq hstep
    obtain rfl : i = c := Int.ofNat_inj.mp hindex
    exact ⟨o, hpartner, hclose, hrest⟩

/-- In `[[C]`, behind the jump of the `]`, the outer loop is on the stack and the inner one has
fired. -/
theorem loops_of_walk_second_pass :
    ∃ ms m,
      Walk (start #['[', '[', 'C', ']'] (.blank 1 1 Nat.one_pos Nat.one_pos .black)) ms m ∧
        m.index = 2 ∧ m.starts = [1] ∧ m.fired = [3] ∧
        entered ['[', '[', 'C', ']'] 2 = {0, 1} := by
  have hwalk : Walk (start #['[', '[', 'C', ']'] (.blank 1 1 Nat.one_pos Nat.one_pos .black)) _
      (place _ (Easel.centered (.blank 1 1 Nat.one_pos Nat.one_pos .black)).changeColor 2 [1] [3]) :=
    .step rfl (.step rfl (.step rfl (.single rfl)))
  -- what the machine itself says, and then the general theorem about it
  obtain ⟨i, hindex, -, -, hentered, -⟩ := loops_of_walk hwalk
  obtain rfl : 2 = i := Int.ofNat_inj.mp hindex
  have hinner : Partner ['[', '[', 'C', ']'] 1 3 := by decide
  refine ⟨_, _, hwalk, rfl, rfl, rfl, hentered.trans (Set.ext fun o => ?_)⟩
  refine or_congr ⟨fun hmem => ?_, fun ho => ?_⟩ ⟨?_, ?_⟩
  · have heq := List.mem_singleton.mp hmem
    omega
  · exact List.mem_singleton.mpr (by rw [ho]; rfl)
  · rintro ⟨c, hpartner, hc⟩
    have heq := List.mem_singleton.mp hc
    obtain rfl : c = 3 := by omega
    exact hpartner.open_unique hinner
  · rintro rfl
    exact ⟨3, hinner, List.mem_singleton.mpr rfl⟩

end LoopPainter.Machine
