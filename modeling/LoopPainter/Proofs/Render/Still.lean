import LoopPainter.Proofs.Render.Formats
import LoopPainter.Proofs.Render.Outcome

/-!
# Rendering a still

A render and a run of the same program take the same steps and leave the same canvas, or they break
off at the same `]`, and then nothing is written.  A PNG file shows the canvas cell by cell, in the
colors of the palette.

Image and summary are apart if their places are.  Paths from the root, paths from the working
directory and paths that leave it by `..` are of one kind each, and paths of two kinds have
different places even where a real store would lead them to one file (`Path.origin`).
-/

namespace LoopPainter

open Brackets Machine

variable {j : Job} {s s' : Store}

/-! ## The canvas of a run -/

theorem size_run (j : Job) :
    (Drawing.startMachine j).run.2.2.canvas.width = j.width.val ∧
      (Drawing.startMachine j).run.2.2.canvas.height = j.height.val := by
  rw [Drawing.startMachine, run_start]
  exact (Easel.centered j.canvas).size_draw _

/-! ## The file of a still -/

namespace Drawing

variable {r : Rendered} {notes : List Note}

/-- A PNG file holds the canvas, unless the summary was written in its place. -/
theorem content_of_render_png (hpng : ImageFormat.ofSuffix? j.output.val.lowerSuffix = some .png)
    (hapart : ∀ path, j.summary = some path → path.place ≠ j.output.val.place)
    (h : render j s = (.ok r, s', notes)) :
    s'.content j.output.val =
      .ok (.image (.still .png (.rgba (ofJob j).machine.canvas.toRgba))) := by
  obtain ⟨-, -, s₁, himage, hsummary⟩ := exists_render_eq_ok_iff.mp ⟨notes, h⟩
  have hsuffixes := ImageFormat.ofSuffix?_eq_some_iff.mp hpng
  -- the temporary file of the summary ends in `.tmp`, so it cannot be the image
  have hsuffix : j.output.val.suffix ≠ ".tmp" := by
    intro htmp
    rw [Path.lowerSuffix, htmp] at hpng
    exact absurd hpng (by decide)
  have hstill : j.animated = false := by
    rw [Job.animated, ← Bool.not_eq_true, List.contains_iff_mem, Job.animationSuffixes,
      List.mem_singleton]
    intro hgif
    rw [hgif] at hpng
    exact absurd hpng (by decide)
  obtain ⟨w, hw, hsave⟩ := saveImage_eq_ok_iff.mp himage
  rw [image?, if_neg (by simp [hstill])] at hw
  obtain rfl := Option.some.inj hw
  obtain ⟨t, c, s₀, -, hcontent, -, hreplaced⟩ := Store.Payload.saved_of_run hsave
  have hlisted : j.output.val.lowerSuffix ∉ ImageFormat.unlisted := fun hunlisted =>
    absurd (ImageFormat.eq_jpeg_of_unlisted hsuffixes hunlisted) (by decide)
  rw [Store.Payload.content?, imageAt?_pictureFor (by decide) hsuffixes hlisted] at hcontent
  obtain rfl := Option.some.inj hcontent
  cases hj : j.summary with
  | none =>
      rw [run_saveSummary_of_none hj] at hsummary
      cases hsummary
      exact hreplaced.content
  | some path =>
      rw [saveSummary, hj] at hsummary
      exact Store.Payload.content_of_run (w := .document ((ofJob j).summary j)) hsummary
        hreplaced.content (hapart path hj).symm
        fun t ht => Store.place_ne_temporaryForBytes ht j.output.property hsuffix

end Drawing

open Drawing

/-- A render breaks off where the run of its program is stopped by a `]`, and then the store is as
it was.  Otherwise the run gets to the end and nothing but the writing can fail.  A still that was
rendered reports the steps and the final position of the run, and a PNG file shows the final canvas,
unless the summary was written in its place. -/
theorem render_follows_run (j : Job) (s : Store) :
    ((∃ k ≤ j.commands.toList.length, depth j.commands.toList k < 0) →
      ∃ (u steps : ℕ) (last : Machine) (notes : List Note),
        (startMachine j).run = (steps, .unmatchedClose u, last) ∧
        render j s = (.error (.program (.unmatchedClose u)), s, notes)) ∧
    ((∀ k ≤ j.commands.toList.length, 0 ≤ depth j.commands.toList k) →
      (∃ i, (startMachine j).run.2.1 = .endOfCommands i) ∧
      (∀ f, (render j s).1 = .error f → (∃ e, f = .image e) ∨ ∃ e, f = .summary e) ∧
      ∀ r s' notes, render j s = (.ok r, s', notes) → j.output.val.lowerSuffix ≠ ".gif" →
        r.steps = (startMachine j).run.1 ∧
        r.position =
          ((startMachine j).run.2.2.painter.x, (startMachine j).run.2.2.painter.y) ∧
        r.frames = 0 ∧
        (ImageFormat.ofSuffix? j.output.val.lowerSuffix = some .png →
          (∀ path, j.summary = some path → path.place ≠ j.output.val.place) →
          ∃ raster : Raster Rgba,
            s'.content j.output.val = .ok (.image (.still .png (.rgba raster))) ∧
            raster.width = j.width.val ∧ raster.height = j.height.val ∧
            ∀ x y : ℕ, x < j.width.val → y < j.height.val → ∃ color,
              (startMachine j).run.2.2.canvas.get x y = .ok color ∧
              raster.pixels[y * j.width.val + x]? = some color.rgba)) := by
  constructor
  · intro hstray
    -- the depth goes below zero first at the `]` that stops the run, before anything is written
    obtain ⟨u, steps, last, hrun⟩ := exists_run_of_stray hstray
    have hhalt : (ofJob j).halt = .unmatchedClose u := by rw [halt_ofJob, hrun]
    obtain ⟨notes, hrender⟩ := exists_render_of_broken hhalt nofun s
    exact ⟨u, steps, last, notes, hrun, hrender⟩
  · intro hdepth
    -- the run gets to the end, so only the writers are left to fail
    have hhalt := halt_of_depth_nonneg hdepth
    refine ⟨⟨_, (halt_ofJob j).symm.trans hhalt⟩, fun f => render_error hhalt, ?_⟩
    intro r s' notes hrender hgif
    obtain ⟨-, rfl, -⟩ := exists_render_eq_ok_iff.mp ⟨notes, hrender⟩
    -- no frames are taken of a still, so steps and position are those of the machine alone
    have hstill : ¬ j.animated = true := by
      rwa [Job.animated, List.contains_iff_mem, Job.animationSuffixes, List.mem_singleton]
    refine ⟨by simp only [rendered, run_startMachine],
      by simp only [rendered, position, run_startMachine],
      by simp only [rendered, frameCount, if_neg hstill], ?_⟩
    intro hpng hapart
    -- drawing keeps the size of the canvas, and the file shows it cell by cell
    obtain ⟨hwidth, hheight⟩ := size_run j
    refine ⟨_, content_of_render_png hpng hapart hrender, ?_, ?_, ?_⟩
    · rw [← hwidth, run_startMachine]
      rfl
    · rw [← hheight, run_startMachine]
      rfl
    · intro x y hx hy
      rw [← hwidth] at hx ⊢
      rw [← hheight] at hy
      rw [run_startMachine] at hx hy ⊢
      exact Canvas.getElem?_toRgba _ hx hy

/-- `CF` on one cell is written to `a.png`, and `]` is not. -/
theorem render_follows_run_one_cell :
    (∃ r s notes, render (.onOneCell ⟨⟨.relative, ["a.png"]⟩, by decide⟩ "CF") {} =
        (.ok r, s, notes) ∧ r.steps = 2 ∧
      ∃ raster, s.content ⟨.relative, ["a.png"]⟩ = .ok (.image (.still .png (.rgba raster))) ∧
        raster.width = 1 ∧ raster.height = 1) ∧
    ∃ notes, render (.onOneCell ⟨⟨.relative, ["a.png"]⟩, by decide⟩ "]") {} =
      (.error (.program (.unmatchedClose 0)), {}, notes) := by
  constructor
  · let j : Job := .onOneCell ⟨⟨.relative, ["a.png"]⟩, by decide⟩ "CF"
    have hdepth : ∀ k ≤ j.commands.toList.length, 0 ≤ depth j.commands.toList k := by decide
    have hwrite (c : Canvas) :
        ∃ s, (Export.saveCanvas ⟨.relative, ["a.png"]⟩ c).run {} = (.ok (), s) := ⟨_, rfl⟩
    obtain ⟨s, himage⟩ := hwrite (ofJob j).machine.canvas
    obtain ⟨notes, hrender⟩ :=
      exists_render_still (j := j) (by decide) hdepth himage (run_saveSummary_of_none rfl _ s)
    obtain ⟨-, -, hstill⟩ := (render_follows_run j {}).2 hdepth
    obtain ⟨hsteps, -, -, hfile⟩ := hstill _ _ _ hrender (by decide)
    obtain ⟨raster, hcontent, hwidth, hheight, -⟩ := hfile (by decide) nofun
    have htwo : (startMachine j).run.1 = 2 := by
      rw [startMachine, run_start]
      decide +kernel
    exact ⟨_, s, notes, hrender, hsteps.trans htwo, raster, hcontent, hwidth, hheight⟩
  · let j : Job := .onOneCell ⟨⟨.relative, ["a.png"]⟩, by decide⟩ "]"
    obtain ⟨u, steps, last, notes, hrun, hrender⟩ :=
      (render_follows_run j {}).1 ⟨1, by decide, by decide⟩
    have hzero : (startMachine j).run.2.1 = .unmatchedClose 0 := by
      rw [startMachine, run_start]
      decide +kernel
    rw [hrun] at hzero
    cases hzero
    exact ⟨notes, hrender⟩

/-- A summary can take the place of the image. -/
theorem render_summary_over_image :
    ∃ r s notes,
      render (.onOneCell ⟨⟨.relative, ["a.png"]⟩, by decide⟩ "" (some ⟨.relative, ["a.png"]⟩)) {} =
        (.ok r, s, notes) ∧
      ∀ file, s.content ⟨.relative, ["a.png"]⟩ ≠ .ok (.image file) := by
  let j : Job := .onOneCell ⟨⟨.relative, ["a.png"]⟩, by decide⟩ "" (some ⟨.relative, ["a.png"]⟩)
  have hdepth : ∀ k ≤ j.commands.toList.length, 0 ≤ depth j.commands.toList k := by decide
  have hwrites (c : Canvas) (d : Datum) : ∃ s₁ s₂,
      (Export.saveCanvas ⟨.relative, ["a.png"]⟩ c).run {} = (.ok (), s₁) ∧
      (Store.saveBytes ⟨.relative, ["a.png"]⟩ (String.ofList (Yaml.dump d)).toUTF8).run s₁ =
        (.ok (), s₂) ∧
      s₂.content ⟨.relative, ["a.png"]⟩ = .ok (.bytes (String.ofList (Yaml.dump d)).toUTF8) :=
    ⟨_, _, rfl, rfl, rfl⟩
  obtain ⟨s₁, s₂, himage, hsummary, hcontent⟩ :=
    hwrites (ofJob j).machine.canvas ((ofJob j).summary j)
  rw [← Store.Payload.save_document (hasLongNumber_summary_onOneCell _ (by decide) _)] at hsummary
  obtain ⟨notes, hrender⟩ := exists_render_still (j := j) (by decide) hdepth himage hsummary
  refine ⟨_, s₂, notes, hrender, fun file => ?_⟩
  rw [hcontent]
  simp

end LoopPainter
