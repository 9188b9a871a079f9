import LoopPainter.Gallery
import LoopPainter.Proofs.Sampler
import Mathlib.Algebra.Order.Ring.Int
import Mathlib.Data.Nat.Cast.Order.Ring
import Mathlib.Tactic.Ring

/-!
# Sampling canvases that go on changing

A `Viewing` is a sampler together with a gallery, whose canvases may be painted between the pauses.
Each pause shows the sampler one of the canvases as it is just then.  All that the sampler comes to
is made of these canvases in their order (`Viewing.after_eq`), so what happens to the gallery later
does not change what was captured.

The number of frames, the clock, the answers and the frames themselves then have closed forms in the
number of pauses (`Viewing.closed_form`).
-/

namespace LoopPainter.Sampler

variable {quantum interval : ℕ}

/-! ## What the pauses answer -/

/-- What the pauses at the canvases `cs` answer in turn. -/
def answers : Sampler → List Canvas → List Bool
  | _, [] => []
  | s, c :: cs => (s.onPause c).1 :: answers (s.pause c) cs

theorem answers_append (s : Sampler) (cs ds : List Canvas) :
    s.answers (cs ++ ds) = s.answers cs ++ (cs.foldl pause s).answers ds := by
  induction cs generalizing s with
  | nil => rfl
  | cons c cs ih => simp only [List.cons_append, answers, ih, List.foldl_cons]

/-- A pause says whether there is one more frame. -/
theorem size_frames_pause (s : Sampler) (c : Canvas) :
    (s.pause c).frames.size = s.frames.size + (s.onPause c).1.toNat := by
  unfold pause onPause
  dsimp only
  split
  · rfl
  · exact Array.size_push _

theorem Sampled.answer (hq : 0 < quantum) (hi : 0 < interval) {cs : List Canvas} {s : Sampler}
    (h : Sampled quantum interval cs s) (c : Canvas) :
    (s.onPause c).1 = decide
      (captures quantum interval cs.length < captures quantum interval (cs.length + 1)) := by
  have hmore := s.size_frames_pause c
  rw [h.size_frames, (h.pause hq hi c).size_frames, List.length_append, List.length_singleton]
    at hmore
  rw [hmore]
  cases (s.onPause c).1 <;> simp

/-- The pauses at which the number of frames grows are those that answer so. -/
theorem answers_eq (hq : 0 < quantum) (hi : 0 < interval) (cs : List Canvas) :
    answers { interval := interval, quantum := quantum } cs =
      (List.range cs.length).map fun k =>
        decide (captures quantum interval k < captures quantum interval (k + 1)) := by
  induction cs using List.reverseRecOn with
  | nil => rfl
  | append_singleton cs c ih =>
      rw [answers_append, ih, List.length_append, List.length_singleton, List.range_succ,
        List.map_append]
      exact congrArg (_ ++ [·]) ((sampled_foldl hq hi cs).answer hq hi c)

/-! ## Closed forms -/

theorem cast_captures (quantum interval n : ℕ) :
    ((captures quantum interval n : ℕ) : ℤ) = min (n : ℤ) (n * quantum / interval) := by
  rw [captures, Nat.mul_comm]
  push_cast
  rfl

theorem cast_due (hq : 0 < quantum) (j : ℕ) :
    ((due quantum interval j : ℕ) : ℤ) =
      max (j : ℤ) ((j * interval + (quantum - 1)) / quantum) := by
  rw [due]
  push_cast [Nat.succ_le_of_lt hq]
  rfl

namespace Sampled

variable {cs : List Canvas} {s : Sampler}

theorem size_eq (h : Sampled quantum interval cs s) :
    (s.frames.size : ℤ) = min (cs.length : ℤ) (cs.length * quantum / interval) := by
  rw [h.size_frames, cast_captures]

theorem elapsed_eq (h : Sampled quantum interval cs s) :
    s.elapsed = cs.length * quantum - interval * s.frames.size := by
  have hadd := h.elapsed_add
  rw [← h.size_frames] at hadd
  push_cast at hadd
  rw [mul_comm (cs.length : ℤ), ← hadd]
  ring

/-- With a quantum that is no longer than the interval, the clock never shows a whole interval. -/
theorem elapsed_eq_emod (h : Sampled quantum interval cs s) (hi : 0 < interval)
    (hle : quantum ≤ interval) : s.elapsed = cs.length * quantum % interval := by
  have hmin : captures quantum interval cs.length = quantum * cs.length / interval := by
    refine Nat.min_eq_right ((Nat.div_le_iff_le_mul_add_pred hi).mpr ?_)
    have := Nat.mul_le_mul_right cs.length hle
    omega
  rw [h.elapsed_eq, h.size_frames, hmin, mul_comm (cs.length : ℤ), Int.emod_def]
  push_cast
  rfl

/-- With a longer quantum, every pause is captured and leaves the difference on the clock. -/
theorem elapsed_eq_mul (h : Sampled quantum interval cs s) (hi : 0 < interval)
    (hlt : interval < quantum) : s.elapsed = cs.length * (quantum - interval) := by
  have hmin : captures quantum interval cs.length = cs.length := by
    refine Nat.min_eq_left ((Nat.le_div_iff_mul_le hi).mpr ?_)
    rw [Nat.mul_comm quantum]
    exact Nat.mul_le_mul_left _ hlt.le
  rw [h.elapsed_eq, h.size_frames, hmin]
  ring

/-- A frame shows the canvas at whose pause it was due, also after any later pauses. -/
theorem exists_frame (h : Sampled quantum interval cs s) (hq : 0 < quantum) (hi : 0 < interval)
    {j : ℕ} (hj : 1 ≤ j) (hle : j ≤ s.frames.size) :
    ∃ c, cs[due quantum interval j - 1]? = some c ∧
      ∀ {more s'}, Sampled quantum interval (cs ++ more) s' →
        s'.frames[j - 1]? = some c.toRgb := by
  rw [h.size_frames] at hle
  -- the pause at which the frame was due is one of the first ones, and stays the same one
  have hdue := (le_captures_iff hq hi).mp hle
  have hpos : j ≤ due quantum interval j := Nat.le_max_left _ _
  have hlt : due quantum interval j - 1 < cs.length := by omega
  refine ⟨_, List.getElem?_eq_getElem hlt, ?_⟩
  intro more s' hmore
  have hle' : j ≤ captures quantum interval (cs ++ more).length := by
    rw [le_captures_iff hq hi, List.length_append]
    omega
  rw [hmore.getElem?_frames (j - 1) (by omega), Nat.sub_add_cancel hj,
    List.getElem?_append_left hlt, List.getElem?_eq_getElem hlt]
  rfl

end Sampled

/-! ## Canvases that change between the pauses -/

/-- What happens while a sampler looks at the canvases of a gallery. -/
inductive Event where
  | edit (command : Gallery.Command)
  | pause (name : String)

/-- The canvases that are shown to a sampler, each as it is at its pause. -/
def shown : Gallery → List Event → List Canvas
  | _, [] => []
  | g, .edit command :: events => shown (g.perform command).2 events
  | g, .pause name :: events => (g.find? name).toList ++ shown g events

/-- The canvases shown first stay the same, whatever happens later. -/
theorem exists_shown_append (g : Gallery) (events later : List Event) :
    ∃ more, shown g (events ++ later) = shown g events ++ more := by
  induction events generalizing g with
  | nil => exact ⟨_, rfl⟩
  | cons event events ih =>
      cases event with
      | edit command => exact ih (g.perform command).2
      | pause name =>
          obtain ⟨more, hmore⟩ := ih g
          refine ⟨more, ?_⟩
          rw [List.cons_append, shown, shown, hmore, List.append_assoc]

/-- A sampler, the gallery whose canvases it is shown, and what the pauses have answered. -/
structure Viewing where
  gallery : Gallery
  sampler : Sampler
  answers : List Bool := []

namespace Viewing

/-- Edit the gallery, or pause at one of its canvases. -/
def step (v : Viewing) : Event → Viewing
  | .edit command => { v with gallery := (v.gallery.perform command).2 }
  | .pause name =>
    match v.gallery.find? name with
    | none => v
    | some c =>
      { v with
        sampler := (v.sampler.onPause c).2
        answers := v.answers ++ [(v.sampler.onPause c).1] }

/-- The viewing after some events. -/
def after (v : Viewing) (events : List Event) : Viewing :=
  events.foldl step v

/-- The sampler and the answers are made of the canvases that were shown. -/
theorem after_eq (v : Viewing) (events : List Event) :
    (v.after events).sampler = (shown v.gallery events).foldl pause v.sampler ∧
      (v.after events).answers = v.answers ++ v.sampler.answers (shown v.gallery events) := by
  induction events generalizing v with
  | nil => exact ⟨rfl, (List.append_nil _).symm⟩
  | cons event events ih =>
      obtain ⟨hsampler, hanswers⟩ := ih (v.step event)
      rw [after, List.foldl_cons, ← after, hsampler, hanswers]
      cases event with
      | edit command => exact ⟨rfl, rfl⟩
      | pause name =>
          rw [shown, step]
          cases v.gallery.find? name with
          | none => exact ⟨rfl, rfl⟩
          | some c => exact ⟨rfl, List.append_assoc _ _ _⟩

/-- After `n` pauses there are as many frames as intervals in the pause time, but no more than
pauses, and the rest of the time is on the clock.  A pause answers whether there is one more frame
than before.  Frame `j` shows the canvas of the pause at which `j` frames were due for the first
time, as it was at that pause, whatever is done to the canvases later. -/
theorem closed_form {interval quantum : ℤ} (hinterval : 1 ≤ interval) (hquantum : 1 ≤ quantum)
    (g : Gallery) (events : List Event) :
    ∃ s v, make interval quantum = .ok s ∧ v = after ⟨g, s, []⟩ events ∧
      ∃ n : ℤ, n = (shown g events).length ∧
        (v.sampler.frames.size : ℤ) = min n (n * quantum / interval) ∧
        v.sampler.elapsed = n * quantum - interval * v.sampler.frames.size ∧
        (quantum ≤ interval → v.sampler.elapsed = n * quantum % interval) ∧
        (interval < quantum → v.sampler.elapsed = n * (quantum - interval)) ∧
        v.answers = (List.range (shown g events).length).map (fun k : ℕ =>
          decide (min (k : ℤ) (k * quantum / interval) <
            min (k + 1 : ℤ) ((k + 1) * quantum / interval))) ∧
        ∀ j : ℕ, 1 ≤ j → j ≤ v.sampler.frames.size → ∃ (k : ℕ) (c : Canvas),
          (k : ℤ) = max (j : ℤ) ((j * interval + (quantum - 1)) / quantum) ∧
          (shown g events)[k - 1]? = some c ∧
          ∀ later, (after ⟨g, s, []⟩ (events ++ later)).sampler.frames[j - 1]? = some c.toRgb := by
  lift interval to ℕ using by omega
  lift quantum to ℕ using by omega
  have hi : 0 < interval := by omega
  have hq : 0 < quantum := by omega
  have hmake : make interval quantum = .ok { interval := interval, quantum := quantum } :=
    if_neg (by omega)
  -- whatever the events are, the sampler has come to what the canvases shown make of it
  have hsampled : ∀ events, Sampled quantum interval (shown g events)
      (after ⟨g, { interval := interval, quantum := quantum }, []⟩ events).sampler := by
    intro events
    rw [(after_eq _ _).1]
    exact sampled_foldl hq hi _
  have hnow := hsampled events
  refine ⟨_, _, hmake, rfl, _, rfl, hnow.size_eq, hnow.elapsed_eq,
    fun hle => hnow.elapsed_eq_emod hi (Int.ofNat_le.mp hle),
    fun hlt => hnow.elapsed_eq_mul hi (Int.ofNat_lt.mp hlt), ?_, ?_⟩
  · rw [(after_eq _ _).2, List.nil_append, answers_eq hq hi]
    refine List.map_congr_left fun k _ => ?_
    have hnext := cast_captures quantum interval (k + 1)
    rw [Nat.cast_succ] at hnext
    rw [← cast_captures, ← hnext, decide_eq_decide, Nat.cast_lt]
  · intro j hj hle
    obtain ⟨c, hshown, hframe⟩ := hnow.exists_frame hq hi hj hle
    refine ⟨_, c, cast_due hq j, hshown, ?_⟩
    intro later
    obtain ⟨more, hmore⟩ := exists_shown_append g events later
    exact hframe (hmore ▸ hsampled (events ++ later))

/-- A quantum of 20 and an interval of 30: of three pauses the second and the third are captured.
The canvas is painted after the second pause, and filled after the third. -/
theorem closed_form_two_frames :
    let g : Gallery := ⟨[("a", .blank 1 1 Nat.one_pos Nat.one_pos .black)]⟩
    let events : List Event := [.pause "a", .pause "a", .edit (.set "a" 0 0 .red), .pause "a"]
    ∃ s v, make 30 20 = .ok s ∧ v = after ⟨g, s, []⟩ events ∧ v.sampler.frames.size = 2 ∧
      v.sampler.elapsed = 0 ∧ v.answers = [false, true, true] ∧
      ∃ k : ℕ, k = 2 ∧ (shown g events)[k - 1]? = some (.blank 1 1 Nat.one_pos Nat.one_pos .black) ∧
        (after ⟨g, s, []⟩ (events ++ [.edit (.fill "a" .blue)])).sampler.frames[0]? =
          some ⟨1, 1, #[⟨0, 0, 0⟩], rfl⟩ := by
  intro g events
  obtain ⟨s, v, hmake, hv, n, hn, hsize, helapsed, -, -, hanswers, hframes⟩ :=
    closed_form (by decide : (1 : ℤ) ≤ 30) (by decide : (1 : ℤ) ≤ 20) g events
  obtain rfl : n = 3 := hn
  have htwo : v.sampler.frames.size = 2 := Nat.cast_injective (hsize.trans (by decide))
  rw [htwo] at helapsed
  obtain ⟨k, c, hk, hshown, hlater⟩ := hframes 1 le_rfl (by omega)
  obtain rfl : k = 2 := Nat.cast_injective (hk.trans (by decide))
  obtain rfl := Option.some_inj.mp hshown
  refine ⟨s, v, hmake, hv, htwo, helapsed, hanswers.trans (by decide), 2, rfl, rfl, ?_⟩
  exact (hlater [.edit (.fill "a" .blue)]).trans (by decide +kernel)

end Viewing

end LoopPainter.Sampler
