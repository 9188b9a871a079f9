import LoopPainter.Proofs.Render.Animation
import LoopPainter.Proofs.Render.Failures

/-!
# Which animations can be written

All frames of an animation are shown for the same time, but equal neighbors are written as one frame
that is shown for the sum of their times (`Merged`), and a time has to fit in a 16-bit field of
hundredths of a second (`exists_storeFrame_iff`).  So an animation is written exactly if no row of
equal frames lasts too long (`exists_encode_gif_iff`).
-/

namespace LoopPainter

open Brackets Machine

namespace ImageFile

variable {t : ℤ} {k m : ℕ} {f r : Raster Rgb} {rest frames : List (Raster Rgb)}
  {merged : List (ℤ × Raster Rgb)}

/-! ## Rows of equal frames -/

/-- Frames that are each shown for a time, and what is left of them once every row of equal frames
has become one. -/
inductive Merged (t : ℤ) : List (Raster Rgb) → List (ℤ × Raster Rgb) → Prop
  | nil : Merged t [] []
  | row (k : ℕ) (r : Raster Rgb) {rest : List (Raster Rgb)} {merged : List (ℤ × Raster Rgb)}
      (hrest : rest.head? ≠ some r) (h : Merged t rest merged) :
      Merged t (List.replicate (k + 1) r ++ rest) (((k + 1 : ℕ) * t, r) :: merged)

theorem merged_mergeFrames (t : ℤ) (frames : List (Raster Rgb)) :
    Merged t frames (mergeFrames (frames.map fun r => (t, r))) := by
  induction frames with
  | nil => exact .nil
  | cons r frames ih =>
      rw [List.map_cons, mergeFrames]
      generalize mergeFrames (frames.map fun r => (t, r)) = merged at ih ⊢
      cases ih with
      | nil =>
          have hrest : ([] : List (Raster Rgb)).head? ≠ some r := nofun
          simpa using Merged.row 0 r hrest (Merged.nil (t := t))
      | @row k r' rest merged hrest h =>
          dsimp only
          split
          -- an equal frame makes the first row longer, another one starts a row
          · next heq =>
              subst heq
              have hsum : t + (k + 1 : ℕ) * t = (k + 1 + 1 : ℕ) * t := by
                rw [Int.natCast_succ (k + 1), Int.add_mul, Int.one_mul, Int.add_comm]
              rw [hsum]
              exact Merged.row (k + 1) r hrest h
          · next hne =>
              have hhead : (List.replicate (k + 1) r' ++ rest).head? ≠ some r := by
                simpa [List.replicate_succ] using Ne.symm hne
              simpa using Merged.row 0 r hhead (.row k r' hrest h)

/-- A row of equal frames at the front of another one is a part of it, or lies behind it. -/
theorem replicate_prefix_cases (hrest : rest.head? ≠ some r)
    (h : List.replicate m f <+: List.replicate k r ++ rest) :
    m = 0 ∨ (f = r ∧ m ≤ k) ∨ List.replicate m f <+: rest := by
  induction k generalizing m with
  | zero => exact .inr (.inr (by simpa using h))
  | succ k ih =>
      cases m with
      | zero => exact .inl rfl
      | succ m =>
          rw [List.replicate_succ, List.replicate_succ, List.cons_append,
            List.cons_prefix_cons] at h
          obtain ⟨rfl, h⟩ := h
          refine .inr (.inl ⟨rfl, ?_⟩)
          rcases ih h with rfl | ⟨-, hle⟩ | hbehind
          · omega
          · omega
          · cases m with
            | zero => omega
            | succ m =>
                obtain ⟨back, rfl⟩ := hbehind
                exact absurd rfl hrest

theorem replicate_infix_cases (hrest : rest.head? ≠ some r)
    (h : List.replicate m f <:+: List.replicate k r ++ rest) :
    m = 0 ∨ (f = r ∧ m ≤ k) ∨ List.replicate m f <:+: rest := by
  induction k with
  | zero => exact .inr (.inr (by simpa using h))
  | succ k ih =>
      rw [List.replicate_succ, List.cons_append, List.infix_cons_iff, ← List.cons_append,
        ← List.replicate_succ] at h
      rcases h with hfront | hinner
      · rcases replicate_prefix_cases hrest hfront with hzero | hrow | hbehind
        · exact .inl hzero
        · exact .inr (.inl hrow)
        · exact .inr (.inr hbehind.isInfix)
      · rcases ih hinner with hzero | ⟨hf, hle⟩ | hbehind
        · exact .inl hzero
        · exact .inr (.inl ⟨hf, hle.trans k.le_succ⟩)
        · exact .inr (.inr hbehind)

/-- All that is left is shown for less than a time if no row of equal frames is shown that long. -/
theorem Merged.forall_lt_iff {limit : ℤ} (h : Merged t frames merged) (ht : 0 ≤ t)
    (hlimit : 0 < limit) :
    (∀ x ∈ merged, x.1 < limit) ↔
      ∀ (k : ℕ) (f : Raster Rgb), List.replicate k f <:+: frames → k * t < limit := by
  induction h with
  | nil =>
      refine iff_of_true nofun fun k f hrow => ?_
      have hzero : k = 0 := by simpa using List.eq_nil_of_infix_nil hrow
      simpa [hzero] using hlimit
  | @row k r rest merged hrest _ ih =>
      rw [List.forall_mem_cons, ih]
      constructor
      · rintro ⟨hfirst, hothers⟩ m f hrow
        rcases replicate_infix_cases hrest hrow with rfl | ⟨-, hle⟩ | hbehind
        · simpa using hlimit
        · exact lt_of_le_of_lt (Int.mul_le_mul_of_nonneg_right (by exact_mod_cast hle) ht) hfirst
        · exact hothers m f hbehind
      · intro hrows
        refine ⟨hrows (k + 1) r (List.prefix_append _ _).isInfix, fun m f hrow => hrows m f ?_⟩
        exact hrow.trans (List.suffix_append _ _).isInfix

theorem Merged.nonneg (h : Merged t frames merged) (ht : 0 ≤ t) : ∀ x ∈ merged, 0 ≤ x.1 := by
  induction h with
  | nil => nofun
  | row k r hrest h ih =>
      exact List.forall_mem_cons.mpr ⟨Int.mul_nonneg (Int.natCast_nonneg _) ht, ih⟩

/-! ## Times -/

/-- The least time, in milliseconds, that is too long for the field of a delay. -/
def timeLimit : ℕ := 655360

theorem floorLog2_le (num den : ℕ) : floorLog2 num den ≤ num.log2 := by
  unfold floorLog2
  dsimp only
  split <;> omega

/-- Whatever is far below the largest number of a format is finite once rounded. -/
theorem exists_round_eq_finite (format : FloatFormat) {num : ℕ}
    (hnum : (num.log2 : ℤ) - (format.precision - 1 : ℕ) < format.maxExponent)
    (hleast : format.minExponent < format.maxExponent) (negative : Bool) (den : ℕ) :
    ∃ significand exponent,
      format.round negative num den = .finite negative significand exponent := by
  have hlog := floorLog2_le num den
  rw [FloatFormat.round]
  by_cases hzero : num = 0
  · exact ⟨0, 0, if_pos hzero⟩
  rw [if_neg hzero]
  dsimp only
  have he : max (floorLog2 num den - (format.precision - 1 : ℕ)) format.minExponent <
      format.maxExponent := by omega
  generalize max (floorLog2 num den - (format.precision - 1 : ℕ)) format.minExponent = e at he ⊢
  generalize roundQuotient _ _ = m
  -- the significand may round up to the next power of two, and then the exponent grows by one
  by_cases hround : m = Nat.pow 2 format.precision
  · have hpower : Nat.pow 2 (format.precision - 1) ≠ 0 := Nat.pos_iff_ne_zero.mp (Nat.two_pow_pos _)
    rw [if_pos hround]
    exact ⟨_, _, (if_neg hpower).trans (if_neg (by dsimp only; omega))⟩
  · rw [if_neg hround]
    dsimp only
    split
    · exact ⟨0, 0, rfl⟩
    · exact ⟨m, e, if_neg (by omega)⟩

/-- A time can be stored if it is below the limit. -/
theorem exists_storeFrame_iff (h : 0 ≤ t) :
    (∃ g, storeFrame (t, r) = .ok g) ↔ t < timeLimit := by
  have hdiv : t.tdiv 10 = t / 10 := Int.tdiv_eq_ediv_of_nonneg h
  constructor
  · rintro ⟨g, hg⟩
    by_contra hlong
    have hfield : ¬ (0 ≤ t / 10 ∧ t / 10 ≤ (maxField : ℤ)) := by
      simp only [timeLimit, maxField] at hlong ⊢
      omega
    rw [storeFrame, hundredths] at hg
    split at hg
    · rw [hdiv] at hg
      simp [field, hfield, Bind.bind, Except.bind] at hg
    · cases hg
  · intro hlt
    -- what can be stored is far below the largest number of the quotient
    have hlog : t.natAbs.log2 < 20 := by
      by_cases hzero : t.natAbs = 0
      · rw [hzero]
        decide
      · rw [Nat.log2_lt hzero]
        simp only [timeLimit] at hlt
        omega
    have hbelow : (t.natAbs.log2 : ℤ) - (FloatFormat.double.precision - 1 : ℕ) <
        FloatFormat.double.maxExponent := by
      simp only [FloatFormat.double]
      omega
    obtain ⟨m, e, hfinite⟩ := exists_round_eq_finite .double hbelow (by decide) (t < 0) 10
    have hfield : 0 ≤ t / 10 ∧ t / 10 ≤ (maxField : ℤ) := by
      simp only [timeLimit, maxField] at hlt ⊢
      omega
    refine ⟨⟨(t / 10).toNat * 10, r⟩, ?_⟩
    rw [storeFrame, hundredths, Binary64.ofFraction, hfinite]
    simp [hdiv, field, hfield, Bind.bind, Except.bind, Pure.pure, Except.pure]

/-! ## Animations -/

theorem exists_mapM_eq_ok_iff {α β ε : Type} {g : α → Except ε β} {xs : List α} :
    (∃ ys, xs.mapM g = .ok ys) ↔ ∀ x ∈ xs, ∃ y, g x = .ok y := by
  induction xs with
  | nil => exact iff_of_true ⟨[], rfl⟩ nofun
  | cons x xs ih =>
      rw [List.forall_mem_cons, ← ih, List.mapM_cons]
      cases g x with
      | error e => simp [Bind.bind, Except.bind]
      | ok y =>
          cases xs.mapM g with
          | error e => simp [Bind.bind, Except.bind]
          | ok ys => simp [Bind.bind, Except.bind, Pure.pure, Except.pure]

theorem encode_gif_eq (interval : ℕ) (first : Raster Rgb) (rest : List (Raster Rgb)) :
    encode .gif (Export.animationOptions interval) (.rgb first) (rest.map .rgb) =
      ((mergeFrames ((first :: rest).map fun r => ((interval : ℤ), r))).mapM storeFrame).map
        (ImageFile.animation (some 0)) := by
  have htimed : ((Picture.rgb first :: rest.map .rgb).map fun p => ((interval : ℤ), p.toRgb)) =
      (first :: rest).map fun r => ((interval : ℤ), r) := by
    rw [← List.map_cons, List.map_map]
    rfl
  rw [← htimed]
  simp only [encode, ImageFormat.holdsMany, Bool.not_true, Bool.and_false, Bool.false_eq_true,
    if_false]
  rfl

/-- Pictures make an animation if no row of equal ones lasts too long. -/
theorem exists_encode_gif_iff (interval : ℕ) (first : Raster Rgb) (rest : List (Raster Rgb)) :
    (∃ file, encode .gif (Export.animationOptions interval) (.rgb first) (rest.map .rgb) =
        .ok file) ↔
      ∀ (k : ℕ) (f : Raster Rgb), List.replicate k f <:+: first :: rest →
        k * interval < timeLimit := by
  have hencode := encode_gif_eq interval first rest
  have hmerged := merged_mergeFrames interval (first :: rest)
  have hpos := hmerged.nonneg (Int.natCast_nonneg interval)
  have hlimit : (0 : ℤ) < timeLimit := by decide
  -- the rows that are stored are the longest ones, so they tell about all rows of equal frames
  have hrows := hmerged.forall_lt_iff (Int.natCast_nonneg interval) hlimit
  generalize mergeFrames ((first :: rest).map fun r => ((interval : ℤ), r)) = merged at *
  calc (∃ file, encode .gif (Export.animationOptions interval) (.rgb first) (rest.map .rgb) =
        .ok file)
      ↔ ∃ gs, merged.mapM storeFrame = .ok gs := by
        rw [hencode]
        cases merged.mapM storeFrame <;> simp [Except.map]
    _ ↔ ∀ x ∈ merged, ∃ g, storeFrame x = .ok g := exists_mapM_eq_ok_iff
    _ ↔ ∀ x ∈ merged, x.1 < timeLimit :=
        forall₂_congr fun x hx => exists_storeFrame_iff (hpos x hx)
    _ ↔ _ := by
        rw [hrows]
        exact_mod_cast Iff.rfl

end ImageFile

open Drawing

variable {j : Job} {s : Store}

/-! ## Rendering an animation without a summary -/

theorem Drawing.exists_saveImage_iff (d : Drawing) (hgif : j.output.val.lowerSuffix = ".gif")
    (hwritable : ∀ t, Store.temporaryForImage j.output.val = .ok t →
      s.Writable j.output.val t) :
    (∃ s', (d.saveImage j).run s = (.ok (), s')) ↔
      ∀ (k : ℕ) (f : Raster Rgb), List.replicate k f <:+: d.frames →
        k * j.interval.val < ImageFile.timeLimit := by
  have hanimated : j.animated = true := by
    rw [Job.animated, hgif]
    rfl
  obtain ⟨t, ht⟩ : ∃ t, Store.temporaryForImage j.output.val = .ok t :=
    ⟨_, Path.withName_eq_ok.mpr ⟨Path.parts_ne_nil_of_suffix j.output.property, rfl⟩⟩
  cases hframes : d.frames with
  | nil => exact absurd hframes d.frames_ne_nil
  | cons first rest =>
      -- nothing is in the way of the writer, so only the encoding decides
      let w : Store.Payload :=
        .pictures (Export.animationOptions j.interval.val) (.rgb first) (rest.map .rgb)
      have himage : d.image? j = some w := by
        rw [image?, if_pos hanimated, hframes]
      have hcontent : w.content? j.output.val =
          (ImageFile.encode .gif (Export.animationOptions j.interval.val) (.rgb first)
            (rest.map .rgb)).toOption.map .image := rfl
      calc (∃ s', (d.saveImage j).run s = (.ok (), s'))
          ↔ ∃ s', (w.save j.output.val).run s = (.ok (), s') := by
            simp only [saveImage_eq_ok_iff, himage, Option.some.injEq, exists_eq_left']
        _ ↔ (w.content? j.output.val).isSome := by
            rw [Store.Payload.exists_ok_iff (w := w) rfl ht, and_iff_left (hwritable t ht)]
        _ ↔ ∃ file, ImageFile.encode .gif (Export.animationOptions j.interval.val) (.rgb first)
              (rest.map .rgb) = .ok file := by
            rw [hcontent]
            cases ImageFile.encode .gif (Export.animationOptions j.interval.val) (.rgb first)
              (rest.map .rgb) <;> simp [Except.toOption]
        _ ↔ _ := ImageFile.exists_encode_gif_iff _ _ _

/-- An animation on which nothing but the encoding can fail is rendered exactly if no row of equal
frames is shown for 655360 ms or longer. -/
theorem exists_render_iff_rows_short (hgif : j.output.val.lowerSuffix = ".gif")
    (hsummary : j.summary = none)
    (hdepth : ∀ k ≤ j.commands.toList.length, 0 ≤ depth j.commands.toList k)
    (hwritable : ∀ t, Store.temporaryForImage j.output.val = .ok t →
      s.Writable j.output.val t) :
    (∃ r s' notes, render j s = (.ok r, s', notes)) ↔
      ∀ (k : ℕ) (f : Raster Rgb), List.replicate k f <:+: (ofJob j).frames →
        k * j.interval.val < 655360 := by
  refine Iff.trans ?_ (exists_saveImage_iff (ofJob j) hgif hwritable)
  constructor
  · rintro ⟨r, s', notes, hrender⟩
    obtain ⟨-, -, s₁, himage, -⟩ := exists_render_eq_ok_iff.mp ⟨notes, hrender⟩
    exact ⟨s₁, himage⟩
  · rintro ⟨s₁, himage⟩
    obtain ⟨notes, hrender⟩ := exists_render_eq_ok_iff.mpr
      ⟨⟨_, halt_of_depth_nonneg hdepth⟩, rfl, s₁, himage, run_saveSummary_of_none hsummary _ s₁⟩
    exact ⟨_, s₁, notes, hrender⟩

/-- An animation of one frame, which is shown for a time. -/
def Job.oneFrame (interval : Interval) : Job :=
  { Job.onOneCell ⟨⟨.relative, ["a.gif"]⟩, by decide⟩ "" with interval := interval }

theorem Drawing.length_frames_oneFrame (interval : Interval) :
    (ofJob (.oneFrame interval)).frames.length = 1 := by
  have hpauses : (startMachine (.oneFrame interval)).countPauses.1 = 0 := by
    have hlooks : (startMachine (Job.oneFrame Job.defaultInterval)).pauseLooks.length = 0 := by
      rw [pauseLooks_startMachine]
      decide +kernel
    rwa [← length_pauseLooks_startMachine]
  have hanimated : (Job.oneFrame interval).animated = true :=
    show (Job.oneFrame Job.defaultInterval).animated = true by decide
  rw [length_frames hanimated, hpauses]
  simp [Sampler.captures]

/-- A single frame is shown for 655359 ms at most. -/
theorem exists_render_iff_rows_short_one_frame :
    (∃ r s' notes, render (.oneFrame ⟨655359, by decide⟩) {} = (.ok r, s', notes)) ∧
      ¬ ∃ r s' notes, render (.oneFrame ⟨655360, by decide⟩) {} = (.ok r, s', notes) := by
  have hwritable : ∀ t, Store.temporaryForImage ⟨.relative, ["a.gif"]⟩ = .ok t →
      Store.Writable {} ⟨.relative, ["a.gif"]⟩ t := by
    intro t ht
    cases ht
    refine ⟨⟨⟨by decide, by decide, by decide⟩, fun q _ c hfile => ?_⟩,
      ⟨⟨by decide, by decide, by decide⟩, by decide, by decide⟩,
      ⟨⟨by decide, by decide, by decide⟩, by decide, by decide⟩, by decide⟩
    unfold Store.find? at hfile
    split at hfile <;> cases hfile
  have hrender (interval : Interval) :
      (∃ r s' notes, render (.oneFrame interval) {} = (.ok r, s', notes)) ↔
        ∀ (k : ℕ) (f : Raster Rgb), List.replicate k f <:+: (ofJob (.oneFrame interval)).frames →
          k * interval.val < 655360 :=
    exists_render_iff_rows_short (j := .oneFrame interval)
      (show (Job.oneFrame Job.defaultInterval).output.val.lowerSuffix = ".gif" by decide) rfl
      (show ∀ k ≤ "".toList.length, 0 ≤ depth "".toList k by decide) hwritable
  rw [hrender, hrender]
  constructor
  · intro k f hrow
    have hk := hrow.length_le
    rw [List.length_replicate, length_frames_oneFrame] at hk
    show k * 655359 < 655360
    omega
  · intro hrows
    obtain ⟨f, hf⟩ := List.length_eq_one_iff.mp (length_frames_oneFrame ⟨655360, by decide⟩)
    have hlt : 1 * 655360 < 655360 := hrows 1 f (by rw [hf]; exact List.infix_refl _)
    omega

end LoopPainter
