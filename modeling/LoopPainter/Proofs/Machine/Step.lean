import LoopPainter.Machine
import LoopPainter.Proofs.Easel
import Mathlib.Data.Int.Notation

/-!
# What one step can do

A machine whose painter stands on its canvas is `place p s i starts fired` for an
easel `s`.  Such a machine never fails to draw, so its step has seven outcomes
(`Outcome`), and `outcome_step` says that the step is one of them.  Everything that
is proved about runs is proved from these seven cases; the definition of `step` is
not opened again.

For the cases in which the step is taken there is one equation each, with the
character under the cursor as its hypothesis: `step_plain`, `step_open`, `step_jump`
and `step_pass`.
-/

namespace LoopPainter.Machine

variable {p : Array Char} {s : Easel} {i : ℤ} {starts fired : List ℤ}

/-- The machine with the program `p` at the easel `s`, its cursor at `i`. -/
def place (p : Array Char) (s : Easel) (i : ℤ) (starts fired : List ℤ) : Machine where
  commands := p
  canvas := s.canvas
  painter := s.painter
  index := i
  starts := starts
  fired := fired

theorem start_eq_place (p : Array Char) (canvas : Canvas) :
    start p canvas = place p (.centered canvas) 0 [] [] := rfl

/-- What an observer is shown when the character `c`, which is no bracket, is obeyed. -/
def eventOf (c : Char) : Event :=
  if c = 'S' then .pause else .quiet

@[simp] theorem current?_place (p : Array Char) (s : Easel) (k : ℕ) (starts fired : List ℤ) :
    (place p s k starts fired).current? = p[k]? := by
  simp [current?, place]

theorem done_of_current {m : Machine} {c : Char} (h : m.current? = some c) : m.done = false := by
  simp only [done, decide_eq_false_iff_not, Int.not_le]
  unfold current? at h
  split at h
  · have := (Array.getElem?_eq_some_iff.mp h).1
    omega
  · omega

/-! ## The steps that are taken -/

theorem step_plain {c : Char} (hc : (place p s i starts fired).current? = some c)
    (hne : c ≠ '[' ∧ c ≠ ']') :
    (place p s i starts fired).step =
      (.ok (eventOf c), place p (s.obey c) (i + 1) starts fired) := by
  unfold step
  rw [done_of_current hc, hc, if_neg Bool.false_ne_true]
  split
  · contradiction
  · next h => cases h; rfl
  · next h => cases h; rfl
  · next h =>
      cases h
      -- an `F` stays on the canvas, so its cell is there to be painted
      exact dif_pos (Painter.inside_advance s.inside)
  · next h => cases h; rfl
  · next h => cases h; exact absurd rfl hne.1
  · next h => cases h; exact absurd rfl hne.2
  · next d hC hR hF hS _ _ h =>
      cases h
      have hevent : eventOf c = .quiet := if_neg fun heq => hS (by rw [heq])
      have hobey : s.obey c = s := by
        unfold Easel.obey
        split
        · exact absurd rfl hC
        · exact absurd rfl hR
        · exact absurd rfl hF
        · rfl
      rw [hevent, hobey]
      rfl

theorem step_open (hc : (place p s i starts fired).current? = some '[') :
    (place p s i starts fired).step =
      (.ok .quiet, place p s (i + 1) ((i + 1) :: starts) fired) := by
  unfold step
  rw [done_of_current hc, hc]
  rfl

theorem step_pass (hc : (place p s i starts fired).current? = some ']') (hfired : i ∈ fired) :
    (place p s i starts fired).step =
      (.ok .quiet, place p s (i + 1) starts (fired.erase i)) := by
  unfold step
  rw [done_of_current hc, hc]
  exact if_pos hfired

theorem step_jump {t : ℤ} (hc : (place p s i (t :: starts) fired).current? = some ']')
    (hfired : i ∉ fired) :
    (place p s i (t :: starts) fired).step =
      (.ok (.jump i t), place p s t starts (i :: fired)) := by
  unfold step
  rw [done_of_current hc, hc]
  exact if_neg hfired

/-! ## The steps that are refused -/

theorem step_finished (h : (p.size : ℤ) ≤ i) :
    (place p s i starts fired).step =
      (.error (.endOfCommands i), place p s i starts fired) := by
  unfold step
  have hdone : (place p s i starts fired).done = true := decide_eq_true h
  rw [hdone]
  rfl

theorem step_stray (hc : (place p s i [] fired).current? = some ']') (hfired : i ∉ fired) :
    (place p s i [] fired).step = (.error (.unmatchedClose i), place p s i [] fired) := by
  unfold step
  rw [done_of_current hc, hc]
  exact if_neg hfired

theorem step_unreadable (h : i < p.size) (hc : (place p s i starts fired).current? = none) :
    (place p s i starts fired).step = (.error .noCharacter, place p s i starts fired) := by
  unfold step
  have hdone : (place p s i starts fired).done = false := decide_eq_false (Int.not_le.mpr h)
  rw [hdone, hc]
  rfl

/-! ## All outcomes -/

/-- What a step of the machine `place p s i starts fired` can answer. -/
inductive Outcome (p : Array Char) (s : Easel) (i : ℤ) (starts fired : List ℤ) :
    Except Halt Event × Machine → Prop where
  | plain {c : Char} (hc : (place p s i starts fired).current? = some c)
      (hne : c ≠ '[' ∧ c ≠ ']') :
      Outcome p s i starts fired (.ok (eventOf c), place p (s.obey c) (i + 1) starts fired)
  | opening (hc : (place p s i starts fired).current? = some '[') :
      Outcome p s i starts fired (.ok .quiet, place p s (i + 1) ((i + 1) :: starts) fired)
  | passing (hc : (place p s i starts fired).current? = some ']') (hfired : i ∈ fired) :
      Outcome p s i starts fired (.ok .quiet, place p s (i + 1) starts (fired.erase i))
  | jumping {t : ℤ} {rest : List ℤ} (hc : (place p s i starts fired).current? = some ']')
      (hfired : i ∉ fired) (hstarts : starts = t :: rest) :
      Outcome p s i starts fired (.ok (.jump i t), place p s t rest (i :: fired))
  | stray (hc : (place p s i starts fired).current? = some ']') (hfired : i ∉ fired)
      (hstarts : starts = []) :
      Outcome p s i starts fired (.error (.unmatchedClose i), place p s i starts fired)
  | finished (h : (p.size : ℤ) ≤ i) :
      Outcome p s i starts fired (.error (.endOfCommands i), place p s i starts fired)
  | unreadable (h : i < p.size) (hc : (place p s i starts fired).current? = none) :
      Outcome p s i starts fired (.error .noCharacter, place p s i starts fired)

theorem outcome_step (p : Array Char) (s : Easel) (i : ℤ) (starts fired : List ℤ) :
    Outcome p s i starts fired (place p s i starts fired).step := by
  by_cases hlt : i < p.size
  · cases hc : (place p s i starts fired).current? with
    | none =>
        rw [step_unreadable hlt hc]
        exact .unreadable hlt hc
    | some c =>
        by_cases hopen : c = '['
        · subst hopen
          rw [step_open hc]
          exact .opening hc
        by_cases hclose : c = ']'
        · subst hclose
          by_cases hfired : i ∈ fired
          · rw [step_pass hc hfired]
            exact .passing hc hfired
          · cases starts with
            | nil =>
                rw [step_stray hc hfired]
                exact .stray hc hfired rfl
            | cons t starts =>
                rw [step_jump hc hfired]
                exact .jumping hc hfired rfl
        · rw [step_plain hc ⟨hopen, hclose⟩]
          exact .plain hc ⟨hopen, hclose⟩
  -- a cursor below zero may still read a character, one behind the program does not
  · have hge := Int.not_lt.mp hlt
    rw [step_finished hge]
    exact .finished hge

/-! ## Machines whose painter stands on the canvas -/

/-- The painter stands on the canvas. -/
def Inside (m : Machine) : Prop :=
  m.canvas.Inside m.painter.x m.painter.y

/-- What can be seen of a machine from outside. -/
def look (m : Machine) : Painter × Canvas :=
  (m.painter, m.canvas)

@[simp] theorem look_place : (place p s i starts fired).look = s.look := rfl

theorem inside_place : (place p s i starts fired).Inside := s.inside

theorem inside_start (p : Array Char) (canvas : Canvas) : (start p canvas).Inside :=
  Painter.inside_centeredOn canvas

theorem Inside.outcome {m : Machine} (h : m.Inside) :
    ∃ s : Easel, s.look = m.look ∧ m = place m.commands s m.index m.starts m.fired ∧
      Outcome m.commands s m.index m.starts m.fired m.step :=
  ⟨⟨m.canvas, m.painter, h⟩, rfl, rfl, outcome_step m.commands ⟨m.canvas, m.painter, h⟩ _ _ _⟩

/-- The painter stays on the canvas and the program stays as it is. -/
theorem Inside.step {m next : Machine} {e : Event} (h : m.Inside) (hstep : m.step = (.ok e, next)) :
    next.Inside ∧ next.commands = m.commands := by
  obtain ⟨s, -, -, houtcome⟩ := h.outcome
  rw [hstep] at houtcome
  cases houtcome <;> exact ⟨inside_place, rfl⟩

/-- A step is a pause exactly at an `S`, and then nothing that can be seen changes. -/
theorem Inside.pause_iff {m next : Machine} {e : Event} (h : m.Inside)
    (hstep : m.step = (.ok e, next)) :
    (e = .pause ↔ m.current? = some 'S') ∧ (e = .pause → next.look = m.look) := by
  obtain ⟨s, hlook, hplace, houtcome⟩ := h.outcome
  rw [hstep] at houtcome
  cases houtcome with
  | @plain c hc hne =>
      rw [← hplace] at hc
      rw [hc, ← hlook]
      by_cases hS : c = 'S'
      · subst hS
        exact ⟨by simp [eventOf], fun _ => rfl⟩
      · simp [eventOf, hS]
  | opening hc =>
      rw [← hplace] at hc
      simp [hc]
  | passing hc _ =>
      rw [← hplace] at hc
      simp [hc]
  | jumping hc _ _ =>
      rw [← hplace] at hc
      simp [hc]

end LoopPainter.Machine
