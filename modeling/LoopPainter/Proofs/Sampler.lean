import LoopPainter.Sampler
import Mathlib.Data.List.Induction

/-!
# Which pauses are captured

A sampler whose clock runs on by `quantum` at each pause captures the first pause at which there
have been as many pauses as frames and the clock, had nothing been taken off it, would have come to
one more interval.  So of the first `p` pauses it captures `min p (quantum * p / interval)`
(`captures`), and frame `i`, counted from one, is the canvas at pause
`max i ⌈i * interval / quantum⌉` (`due`).  The two are the two sides of one equivalence
(`le_captures_iff`), from which the rest follows by counting.

The first argument of `min` and `max` is the cap of one frame for each pause.  It only counts if the
interval is shorter than the quantum; the clock then runs further and further ahead.
-/

namespace LoopPainter.Sampler

/-- How many of the first `pauses` pauses are captured. -/
def captures (quantum interval pauses : ℕ) : ℕ :=
  min pauses (quantum * pauses / interval)

/-- The pause at which frame `i` is captured; pauses and frames are counted from one. -/
def due (quantum interval i : ℕ) : ℕ :=
  max i ((i * interval + (quantum - 1)) / quantum)

variable {quantum interval : ℕ}

/-! ## Counting -/

theorem le_captures (hi : 0 < interval) {i pauses : ℕ} :
    i ≤ captures quantum interval pauses ↔ i ≤ pauses ∧ i * interval ≤ quantum * pauses := by
  rw [captures, Nat.le_min, Nat.le_div_iff_mul_le hi]

/-- Frame `i` has been captured as soon as it is due. -/
theorem le_captures_iff (hq : 0 < quantum) (hi : 0 < interval) {i pauses : ℕ} :
    i ≤ captures quantum interval pauses ↔ due quantum interval i ≤ pauses := by
  rw [le_captures hi, due, Nat.max_le, Nat.div_le_iff_le_mul_add_pred hq, Nat.add_le_add_iff_right]

theorem captures_le (quantum interval pauses : ℕ) : captures quantum interval pauses ≤ pauses :=
  Nat.min_le_left _ _

/-- One pause brings at most one frame, and takes none away. -/
theorem captures_succ_cases (quantum : ℕ) (hi : 0 < interval) (pauses : ℕ) :
    captures quantum interval (pauses + 1) = captures quantum interval pauses ∨
      captures quantum interval (pauses + 1) = captures quantum interval pauses + 1 := by
  have hmono : captures quantum interval pauses ≤ captures quantum interval (pauses + 1) := by
    obtain ⟨hle, hmul⟩ := (le_captures hi).mp (Nat.le_refl (captures quantum interval pauses))
    refine (le_captures hi).mpr ⟨Nat.le_succ_of_le hle, ?_⟩
    exact Nat.le_trans hmul (Nat.mul_le_mul_left _ pauses.le_succ)
  generalize hn : captures quantum interval pauses = n at hmono ⊢
  have hno : ¬ n + 2 ≤ captures quantum interval (pauses + 1) := by
    intro htwo
    obtain ⟨hle, hmul⟩ := (le_captures hi).mp htwo
    have hnext : ¬ n + 1 ≤ captures quantum interval pauses := by omega
    rw [le_captures hi, not_and, Nat.not_le] at hnext
    have hlt := hnext (by omega)
    rw [Nat.succ_mul (n + 1), Nat.mul_succ] at hmul
    -- two frames in one pause would need a short interval, and then the cap holds one back
    have hshort : (n + 1) * interval ≤ pauses * quantum :=
      Nat.mul_le_mul (by omega) (by omega)
    rw [Nat.mul_comm pauses] at hshort
    omega
  omega

/-- A pause that is captured is the one at which the next frame is due. -/
theorem due_of_captures_succ (hq : 0 < quantum) (hi : 0 < interval) {pauses : ℕ}
    (h : captures quantum interval (pauses + 1) = captures quantum interval pauses + 1) :
    due quantum interval (captures quantum interval pauses + 1) = pauses + 1 := by
  have hdue := (le_captures_iff hq hi).mp (Nat.le_of_eq h.symm)
  have hearlier : ¬ due quantum interval (captures quantum interval pauses + 1) ≤ pauses := by
    rw [← le_captures_iff hq hi]
    omega
  omega

/-! ## The frames of a sampler -/

/-- The sampler after one more pause. -/
def pause (s : Sampler) (c : Canvas) : Sampler :=
  (s.onPause c).2

/-- What a sampler has come to after pauses that showed the canvases `cs`. -/
structure Sampled (quantum interval : ℕ) (cs : List Canvas) (s : Sampler) : Prop where
  interval_eq : s.interval = interval
  quantum_eq : s.quantum = quantum
  /-- The whole pause time is on the clock or has been taken off it for a frame. -/
  elapsed_add : s.elapsed + (captures quantum interval cs.length * interval : ℕ) =
    (quantum * cs.length : ℕ)
  size_frames : s.frames.size = captures quantum interval cs.length
  getElem?_frames : ∀ i < captures quantum interval cs.length,
    s.frames[i]? = cs[due quantum interval (i + 1) - 1]?.map Canvas.toRgb

theorem sampled_nil (quantum interval : ℕ) :
    Sampled quantum interval [] { interval := interval, quantum := quantum } where
  interval_eq := rfl
  quantum_eq := rfl
  elapsed_add := by simp [captures]
  size_frames := by simp [captures]
  getElem?_frames := by simp [captures]

/-- The clock tells whether the next pause is captured. -/
theorem Sampled.captures_succ (hi : 0 < interval) {cs : List Canvas} {s : Sampler}
    (h : Sampled quantum interval cs s) :
    captures quantum interval (cs.length + 1) =
      if s.elapsed + s.quantum < s.interval then captures quantum interval cs.length
      else captures quantum interval cs.length + 1 := by
  have helapsed := h.elapsed_add
  have hquantum : quantum * (cs.length + 1) = quantum * cs.length + quantum := Nat.mul_succ _ _
  have hinterval : (captures quantum interval cs.length + 1) * interval =
      captures quantum interval cs.length * interval + interval := Nat.succ_mul _ _
  have hnext : captures quantum interval cs.length + 1 ≤
      captures quantum interval (cs.length + 1) ↔
      ¬ s.elapsed + s.quantum < s.interval := by
    rw [le_captures hi, h.quantum_eq, h.interval_eq]
    have := captures_le quantum interval cs.length
    omega
  -- one pause captures once at most, so the inequality tells the number
  have hcases := captures_succ_cases quantum hi cs.length
  split
  · next hquiet =>
      have := mt hnext.mp (not_not.mpr hquiet)
      omega
  · next hcaptured =>
      have := hnext.mpr hcaptured
      omega

/-- The frames so far were due at pauses that are still where they were. -/
theorem Sampled.getElem?_append (hq : 0 < quantum) (hi : 0 < interval) {cs : List Canvas}
    {s : Sampler} (h : Sampled quantum interval cs s) (cs' : List Canvas) {i : ℕ}
    (hlt : i < captures quantum interval cs.length) :
    s.frames[i]? = (cs ++ cs')[due quantum interval (i + 1) - 1]?.map Canvas.toRgb := by
  have hdue : due quantum interval (i + 1) ≤ cs.length :=
    (le_captures_iff hq hi).mp (Nat.succ_le_of_lt hlt)
  have hpos : i + 1 ≤ due quantum interval (i + 1) := Nat.le_max_left _ _
  rw [h.getElem?_frames i hlt, List.getElem?_append_left (by omega)]

/-- One more pause keeps what a sampler has come to. -/
theorem Sampled.pause (hq : 0 < quantum) (hi : 0 < interval) {cs : List Canvas} {s : Sampler}
    (h : Sampled quantum interval cs s) (c : Canvas) :
    Sampled quantum interval (cs ++ [c]) (s.pause c) := by
  have hlen : (cs ++ [c]).length = cs.length + 1 := by simp
  have helapsed := h.elapsed_add
  have hquantum : quantum * (cs.length + 1) = quantum * cs.length + quantum := Nat.mul_succ _ _
  have hcount := h.captures_succ hi
  unfold Sampler.pause onPause
  dsimp only
  by_cases hquiet : s.elapsed + s.quantum < s.interval
  -- nothing is captured: the clock goes on and the frames stay
  · rw [if_pos hquiet] at hcount ⊢
    refine ⟨h.interval_eq, h.quantum_eq, ?_, ?_, ?_⟩
    · rw [hlen, hcount]
      dsimp only
      rw [h.quantum_eq]
      omega
    · rw [hlen, hcount]
      exact h.size_frames
    · rw [hlen, hcount]
      exact fun i hlt => h.getElem?_append hq hi [c] hlt
  -- a frame is captured: it is the last one, and it was due at this pause
  · rw [if_neg hquiet] at hcount ⊢
    have hinterval : (captures quantum interval cs.length + 1) * interval =
        captures quantum interval cs.length * interval + interval := Nat.succ_mul _ _
    refine ⟨h.interval_eq, h.quantum_eq, ?_, ?_, ?_⟩
    · rw [hlen, hcount]
      dsimp only
      rw [h.quantum_eq, h.interval_eq]
      omega
    · rw [hlen, hcount, Array.size_push, h.size_frames]
    · rw [hlen, hcount]
      intro i hlt
      rw [Array.getElem?_push, h.size_frames]
      rcases Nat.lt_succ_iff_lt_or_eq.mp hlt with hlt | rfl
      · rw [if_neg (by omega)]
        exact h.getElem?_append hq hi [c] hlt
      · rw [if_pos rfl, due_of_captures_succ hq hi hcount]
        simp

/-- The sampler after any pauses, from the first on. -/
theorem sampled_foldl (hq : 0 < quantum) (hi : 0 < interval) (cs : List Canvas) :
    Sampled quantum interval cs
      (cs.foldl Sampler.pause { interval := interval, quantum := quantum }) := by
  induction cs using List.reverseRecOn with
  | nil => exact sampled_nil quantum interval
  | append_singleton cs c ih =>
      rw [List.foldl_append]
      exact ih.pause hq hi c

end LoopPainter.Sampler
