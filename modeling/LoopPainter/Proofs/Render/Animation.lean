import LoopPainter.Proofs.Render.Outcome

/-!
# The frames of an animation

Of the pauses of a run every one adds 20 ms to the clock of the sampler, and it is captured if an
interval has come together.  What is captured is the canvas at that pause, which later steps do not
change any more (`getElem?_frames_ofJob`).  If no pause is captured, the animation shows the final
canvas.
-/

namespace LoopPainter

open Brackets Machine

namespace Machine

theorem length_pauseLooks {m : Machine} (hin : m.Inside) :
    m.pauseLooks.length = m.countPauses.1 := by
  obtain ⟨ms, m', halt, last, hwalk, hhalt⟩ := exists_walk_halted m
  rw [pauseLooks_of_walk hwalk hin hhalt, countPauses_of_walk hwalk hin hhalt]

end Machine

namespace Drawing

open Sampler

variable {j : Job}

/-! ## Frames and pauses -/

theorem length_pauseLooks_startMachine (j : Job) :
    (startMachine j).pauseLooks.length = (startMachine j).countPauses.1 :=
  length_pauseLooks (inside_start _ _)

theorem sampled_ofJob (hanimated : j.animated = true) :
    Sampled 20 j.interval.val ((startMachine j).pauseLooks.map Prod.snd) (ofJob j).sampler := by
  rw [sampler_ofJob j hanimated]
  exact sampled_foldl (by decide) j.interval.property _

theorem size_frames_ofJob (hanimated : j.animated = true) :
    (ofJob j).sampler.frames.size =
      captures 20 j.interval.val (startMachine j).countPauses.1 := by
  have hlen : ((startMachine j).pauseLooks.map Prod.snd).length =
      (startMachine j).countPauses.1 := by
    rw [List.length_map, length_pauseLooks_startMachine]
  rw [(sampled_ofJob hanimated).size_frames, hlen]

/-- Without a captured pause the final canvas is the only frame. -/
theorem frames_of_captures_eq_zero (hanimated : j.animated = true)
    (h : captures 20 j.interval.val (startMachine j).countPauses.1 = 0) :
    (ofJob j).frames = [(startMachine j).run.2.2.canvas.toRgb] := by
  have hsize := size_frames_ofJob hanimated
  rw [h, Array.size_eq_zero_iff] at hsize
  rw [frames, hsize, run_startMachine]
  rfl

theorem frames_of_captures_pos (hanimated : j.animated = true)
    (h : 0 < captures 20 j.interval.val (startMachine j).countPauses.1) :
    (ofJob j).frames = (ofJob j).sampler.frames.toList := by
  rw [← size_frames_ofJob hanimated, Array.size_pos_iff] at h
  rw [frames, if_neg (by simpa using h)]

theorem length_frames (hanimated : j.animated = true) :
    (ofJob j).frames.length =
      max 1 (captures 20 j.interval.val (startMachine j).countPauses.1) := by
  rcases Nat.eq_zero_or_pos (captures 20 j.interval.val (startMachine j).countPauses.1) with h | h
  · rw [frames_of_captures_eq_zero hanimated h, h]
    rfl
  · rw [frames_of_captures_pos hanimated h, Array.length_toList, size_frames_ofJob hanimated]
    omega

/-- A frame shows the canvas at the pause at which it was due. -/
theorem exists_look_of_le_captures (hanimated : j.animated = true) {i : ℕ} (hpos : 1 ≤ i)
    (hle : i ≤ captures 20 j.interval.val (startMachine j).countPauses.1) :
    ∃ look, (startMachine j).pauseLooks[due 20 j.interval.val i - 1]? = some look ∧
      (ofJob j).frames[i - 1]? = some look.2.toRgb := by
  have hlen := length_pauseLooks_startMachine j
  have hdue := (le_captures_iff (by decide) j.interval.property).mp hle
  have hdue_pos : i ≤ due 20 j.interval.val i := Nat.le_max_left _ _
  have hlt : due 20 j.interval.val i - 1 < (startMachine j).pauseLooks.length := by omega
  refine ⟨_, List.getElem?_eq_getElem hlt, ?_⟩
  have hframe := (sampled_ofJob hanimated).getElem?_frames (i - 1)
    (by rw [List.length_map, hlen]; omega)
  rw [Nat.sub_add_cancel hpos, List.getElem?_map, List.getElem?_eq_getElem hlt] at hframe
  rw [frames_of_captures_pos hanimated (by omega), Array.getElem?_toList, hframe]
  rfl

end Drawing

open Drawing

/-! ## Rendering an animation -/

/-- An animation is written with one frame for each captured pause or, if there is none, with the
final canvas.  If that and the summary can be written, the render succeeds and reports the number of
frames and the steps and the final position of the run. -/
theorem exists_render_animation {j : Job} (hgif : j.output.val.lowerSuffix = ".gif")
    (hdepth : ∀ k ≤ j.commands.toList.length, 0 ≤ depth j.commands.toList k) :
    ∃ (pauses count : ℕ) (frames : List (Raster Rgb)),
      pauses = (startMachine j).countPauses.1 ∧
      (startMachine j).pauseLooks.length = pauses ∧
      count = min pauses (20 * pauses / j.interval.val) ∧
      (ofJob j).saveImage j = Export.saveAnimation j.output.val j.interval.val frames ∧
      frames.length = max 1 count ∧
      (∀ i, 1 ≤ i → i ≤ count → ∃ look,
        (startMachine j).pauseLooks[max i ((i * j.interval.val + 19) / 20) - 1]? = some look ∧
        frames[i - 1]? = some look.2.toRgb) ∧
      (count = 0 → frames = [(startMachine j).run.2.2.canvas.toRgb]) ∧
      ∀ s s₁ s₂,
        (Export.saveAnimation j.output.val j.interval.val frames).run s = (.ok (), s₁) →
        ((ofJob j).saveSummary j).run s₁ = (.ok (), s₂) →
        ∃ (r : Rendered) (notes : List Note),
          render j s = (.ok r, s₂, notes) ∧
          r.frames = max 1 count ∧
          r.steps = (startMachine j).run.1 ∧
          r.position =
            ((startMachine j).run.2.2.painter.x, (startMachine j).run.2.2.painter.y) := by
  have hanimated : j.animated = true := by
    rw [Job.animated, hgif]
    rfl
  -- the frames are those of the drawing, whatever becomes of the file
  have hsave : (ofJob j).saveImage j =
      Export.saveAnimation j.output.val j.interval.val (ofJob j).frames := by
    rw [saveImage, if_pos hanimated]
  refine ⟨_, _, (ofJob j).frames, rfl, length_pauseLooks_startMachine j, rfl, hsave,
    length_frames hanimated, fun i => exists_look_of_le_captures hanimated,
    frames_of_captures_eq_zero hanimated, ?_⟩
  intro s s₁ s₂ himage hsummary
  rw [← hsave] at himage
  obtain ⟨notes, hrender⟩ := exists_render_eq_ok_iff.mpr
    ⟨⟨_, halt_of_depth_nonneg hdepth⟩, rfl, s₁, himage, hsummary⟩
  refine ⟨(ofJob j).rendered j, notes, hrender, ?_, ?_, ?_⟩
  · simp only [rendered, frameCount, if_pos hanimated]
    exact length_frames hanimated
  · simp only [rendered, run_startMachine]
  · simp only [rendered, position, run_startMachine]

/-- Five pauses make one frame of 100 ms.  It shows what was painted before the fifth. -/
theorem exists_render_animation_five_pauses :
    ∃ frames s r notes,
      (ofJob (.onOneCell ⟨⟨.relative, ["a.GIF"]⟩, by decide⟩ "SSSSFS")).saveImage
          (.onOneCell ⟨⟨.relative, ["a.GIF"]⟩, by decide⟩ "SSSSFS") =
        Export.saveAnimation ⟨.relative, ["a.GIF"]⟩ 100 frames ∧
      frames.length = 1 ∧ frames[0]? = some ⟨1, 1, #[⟨255, 255, 255⟩], rfl⟩ ∧
      render (.onOneCell ⟨⟨.relative, ["a.GIF"]⟩, by decide⟩ "SSSSFS") {} = (.ok r, s, notes) ∧
      r.frames = 1 := by
  let j : Job := .onOneCell ⟨⟨.relative, ["a.GIF"]⟩, by decide⟩ "SSSSFS"
  obtain ⟨pauses, count, frames, hpauses, -, hcount, hsave, hlength, hshow, -, hrender⟩ :=
    exists_render_animation (j := j) (by decide) (by decide)
  have hinterval : j.interval.val = 100 := rfl
  have hone : count = 1 := by
    have hfive : (startMachine j).countPauses.1 = 5 := by
      rw [← length_pauseLooks_startMachine, pauseLooks_startMachine]
      decide +kernel
    rw [hcount, hpauses, hfive, hinterval]
    decide
  obtain ⟨look, hlook, hframe⟩ := hshow 1 le_rfl hone.ge
  have hwhite : look.2.toRgb = ⟨1, 1, #[⟨255, 255, 255⟩], rfl⟩ := by
    have hmap := congrArg (Option.map fun l : Painter × Canvas => l.2.toRgb) hlook
    rw [hinterval, pauseLooks_startMachine] at hmap
    refine Option.some.inj (hmap.symm.trans ?_)
    decide +kernel
  rw [hone] at hlength
  obtain ⟨f, rfl⟩ := List.length_eq_one_iff.mp hlength
  have hwrite : ∃ s, (Export.saveAnimation ⟨.relative, ["a.GIF"]⟩ 100 [f]).run {} = (.ok (), s) :=
    ⟨_, rfl⟩
  obtain ⟨s, hs⟩ := hwrite
  obtain ⟨r, notes, hr, hcounted, -⟩ := hrender {} s s hs (run_saveSummary_of_none rfl _ s)
  refine ⟨[f], s, r, notes, hsave, hlength, ?_, hr, ?_⟩
  · rw [← hwhite]
    exact hframe
  · rw [hcounted, hone]
    rfl

end LoopPainter
