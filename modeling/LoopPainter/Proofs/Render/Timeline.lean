import LoopPainter.Proofs.Render.Playback

/-!
# How long frames are shown

The frames of an animation are meant to be shown one after the other, each for the same time
(`Plays`).  The file holds the rows of equal frames, each with the sum of its times, of which the odd
milliseconds below ten are lost (`cut`).  So the frames play as they are meant to exactly if no row
has odd milliseconds (`saved_plays_iff`).
-/

namespace LoopPainter

namespace ImageFile

variable {t : ℤ} {time j u : ℕ} {r : Raster Rgb} {g : GifFrame} {frames : List (Raster Rgb)}
  {merged : List (ℤ × Raster Rgb)} {shown : List GifFrame}

/-! ## Playing an animation -/

/-- How long an animation takes. -/
def runningTime : List GifFrame → ℕ
  | [] => 0
  | g :: rest => g.duration + runningTime rest

/-- The picture that is shown at a time. -/
def pictureAt : List GifFrame → ℕ → Option (Raster Rgb)
  | [], _ => none
  | g :: rest, u => if u < g.duration then some g.picture else pictureAt rest (u - g.duration)

/-- Frames are shown one after the other, each for the same time, and then the animation ends. -/
structure Plays (time : ℕ) (frames : List (Raster Rgb)) (shown : List GifFrame) : Prop where
  total : runningTime shown = frames.length * time
  shows : ∀ (j : ℕ) (hj : j < frames.length) (u : ℕ), j * time ≤ u → u < (j + 1) * time →
    pictureAt shown u = some frames[j]

/-! ## What is stored -/

/-- A frame that is shown for a time. -/
def uncut (x : ℤ × Raster Rgb) : GifFrame :=
  ⟨x.1.toNat, x.2⟩

/-- A frame that is shown for a time, without the odd milliseconds. -/
def cut (x : ℤ × Raster Rgb) : GifFrame :=
  ⟨x.1.toNat / 10 * 10, x.2⟩

theorem eq_toNat_of_field {i : ℤ} {n : ℕ} (h : field i = .ok n) : n = i.toNat := by
  unfold field at h
  split at h
  · cases h
    rfl
  · cases h

theorem eq_cut_of_storeFrame (ht : 0 ≤ t) (h : storeFrame (t, r) = .ok g) : g = cut (t, r) := by
  have hdiv : t.tdiv 10 = t / 10 := Int.tdiv_eq_ediv_of_nonneg ht
  have hnat : (t / 10).toNat = t.toNat / 10 := by omega
  rw [storeFrame, hundredths] at h
  split at h
  · dsimp only [Bind.bind, Except.bind] at h
    split at h
    · cases h
    · next delay hfield =>
        cases h
        rw [cut, eq_toNat_of_field hfield, hdiv, hnat]
  · cases h

theorem eq_map_cut_of_mapM (hpos : ∀ x ∈ merged, 0 ≤ x.1)
    (h : merged.mapM storeFrame = .ok shown) : shown = merged.map cut := by
  induction merged generalizing shown with
  | nil =>
      cases h
      rfl
  | cons x merged ih =>
      rw [List.forall_mem_cons] at hpos
      rw [List.mapM_cons] at h
      cases hx : storeFrame x with
      | error e =>
          rw [hx] at h
          cases h
      | ok g =>
          rw [hx] at h
          cases hrest : merged.mapM storeFrame with
          | error e =>
              rw [hrest] at h
              cases h
          | ok rest =>
              rw [hrest] at h
              cases h
              rw [List.map_cons, ← ih hpos.2 hrest, ← eq_cut_of_storeFrame hpos.1 hx]

/-- A row loses nine milliseconds at most, so an animation loses less than ten for each row. -/
theorem runningTime_map_cut_le (merged : List (ℤ × Raster Rgb)) :
    runningTime (merged.map cut) ≤ runningTime (merged.map uncut) ∧
      runningTime (merged.map uncut) ≤ runningTime (merged.map cut) + 9 * merged.length := by
  induction merged with
  | nil => exact ⟨le_rfl, le_rfl⟩
  | cons x merged ih =>
      rw [List.map_cons, List.map_cons, runningTime, runningTime, List.length_cons]
      dsimp only [cut, uncut]
      omega

/-- Nothing is lost exactly if there are no odd milliseconds. -/
theorem runningTime_map_cut_eq_iff (hpos : ∀ x ∈ merged, 0 ≤ x.1) :
    runningTime (merged.map cut) = runningTime (merged.map uncut) ↔ ∀ x ∈ merged, 10 ∣ x.1 := by
  induction merged with
  | nil => exact iff_of_true rfl nofun
  | cons x merged ih =>
      rw [List.forall_mem_cons] at hpos ⊢
      rw [← ih hpos.2, List.map_cons, List.map_cons, runningTime, runningTime]
      have hle := (runningTime_map_cut_le merged).1
      have hx := hpos.1
      dsimp only [cut, uncut]
      omega

/-! ## Playing rows of equal frames -/

theorem Merged.runningTime_eq (h : Merged time frames merged) :
    runningTime (merged.map uncut) = frames.length * time := by
  induction h with
  | nil => rw [List.map_nil, runningTime, List.length_nil, Nat.zero_mul]
  | @row k r rest merged hrest _ ih =>
      have hrow : (((k + 1 : ℕ) : ℤ) * time).toNat = (k + 1) * time := by
        rw [← Int.natCast_mul, Int.toNat_natCast]
      rw [List.map_cons, runningTime, ih, uncut, hrow, List.length_append, List.length_replicate,
        ← Nat.add_mul]

/-- Rows without odd milliseconds show every frame when it is due. -/
theorem Merged.pictureAt_eq (h : Merged time frames merged) (hwhole : ∀ x ∈ merged, 10 ∣ x.1)
    (hj : j < frames.length) (hlow : j * time ≤ u) (hhigh : u < (j + 1) * time) :
    pictureAt (merged.map cut) u = some frames[j] := by
  induction h generalizing j u with
  | nil => exact absurd hj (Nat.not_lt_zero j)
  | @row k r rest merged hrest _ ih =>
      rw [List.forall_mem_cons] at hwhole
      -- a row without odd milliseconds is stored with its full time
      have hrow : (((k + 1 : ℕ) : ℤ) * time).toNat / 10 * 10 = (k + 1) * time := by
        have hnat : (((k + 1 : ℕ) : ℤ) * time).toNat = (k + 1) * time := by
          rw [← Int.natCast_mul, Int.toNat_natCast]
        have hten := hwhole.1
        omega
      rw [List.map_cons, cut, hrow, pictureAt]
      dsimp only
      by_cases hin : j < k + 1
      · -- the frame belongs to the row
        have hu : u < (k + 1) * time :=
          lt_of_lt_of_le hhigh (Nat.mul_le_mul_right time hin)
        rw [if_pos hu, List.getElem_append_left (by simpa using hin), List.getElem_replicate]
      · -- the frame is shown after the row
        obtain ⟨i, rfl⟩ : ∃ i, j = k + 1 + i := ⟨j - (k + 1), by omega⟩
        have hlow' : (k + 1) * time + i * time ≤ u := by rwa [← Nat.add_mul]
        have hhigh' : u < (k + 1) * time + (i + 1) * time := by
          rwa [← Nat.add_mul, ← Nat.add_assoc]
        have hi : i < rest.length := by
          rw [List.length_append, List.length_replicate] at hj
          omega
        rw [if_neg (by omega), ih hwhole.2 hi (by omega) (by omega),
          List.getElem_append_right (by simp)]
        simp

/-- Rows of equal frames play like the frames exactly if there are no odd milliseconds. -/
theorem Merged.plays_iff (h : Merged time frames merged) :
    Plays time frames (merged.map cut) ↔ ∀ x ∈ merged, 10 ∣ x.1 := by
  rw [← runningTime_map_cut_eq_iff (h.nonneg (Int.natCast_nonneg time)), h.runningTime_eq]
  constructor
  · exact Plays.total
  · intro htotal
    rw [← h.runningTime_eq, runningTime_map_cut_eq_iff (h.nonneg (Int.natCast_nonneg time))] at htotal
    refine ⟨?_, fun j hj u => h.pictureAt_eq htotal hj⟩
    rwa [← h.runningTime_eq, runningTime_map_cut_eq_iff (h.nonneg (Int.natCast_nonneg time))]

end ImageFile

open ImageFile

variable {path : Path} {time : ℕ} {frames : List (Raster Rgb)} {s s' : Store}

/-- A file that frames were saved to holds their rows without odd milliseconds, and repeats them
for ever. The frames play as they are meant to exactly if no row has odd milliseconds; otherwise the
animation is too short, by nine milliseconds for each row at most. -/
theorem saved_plays_iff (h : (Export.saveAnimation path time frames).run s = (.ok (), s')) :
    ∃ merged, Merged time frames merged ∧
      s'.content path = .ok (.image (.animation (some 0) (merged.map cut))) ∧
      (Plays time frames (merged.map cut) ↔ ∀ x ∈ merged, 10 ∣ x.1) ∧
      runningTime (merged.map cut) ≤ frames.length * time ∧
      frames.length * time ≤ runningTime (merged.map cut) + 9 * merged.length := by
  cases frames with
  | nil => cases h
  | cons first rest =>
      let w : Store.Payload :=
        .pictures (Export.animationOptions time) (.rgb first) (rest.map .rgb)
      have hsave : (w.save path).run s = (.ok (), s') := Store.run_adapt_eq_ok_iff.mp h
      obtain ⟨t, c, s₁, -, hcontent, -, hreplaced⟩ := Store.Payload.saved_of_run hsave
      have hfile : w.content? path =
          (encode .gif (Export.animationOptions time) (.rgb first) (rest.map .rgb)).toOption.map
            .image := rfl
      have hmerged := merged_mergeFrames time (first :: rest)
      rw [hfile, encode_gif_eq] at hcontent
      -- the file holds the rows that the encoder made, cut to hundredths of a second
      generalize mergeFrames ((first :: rest).map fun r => ((time : ℤ), r)) = merged
        at hcontent hmerged
      cases hshown : merged.mapM storeFrame with
      | error e =>
          rw [hshown] at hcontent
          cases hcontent
      | ok shown =>
          rw [hshown] at hcontent
          cases hcontent
          obtain rfl := eq_map_cut_of_mapM (hmerged.nonneg (Int.natCast_nonneg time)) hshown
          have hle := runningTime_map_cut_le merged
          rw [hmerged.runningTime_eq] at hle
          exact ⟨merged, hmerged, hreplaced.content, hmerged.plays_iff, hle⟩

/-- A black cell. -/
def Raster.blackCell : Raster Rgb :=
  ⟨1, 1, #[Color.black.rgb], rfl⟩

/-- One frame of 15 ms is shown for 10 ms, but two equal ones make up a row of 30 ms. -/
theorem saved_plays_iff_fifteen :
    (∃ s' shown, (Export.saveAnimation ⟨.relative, ["a.gif"]⟩ 15 [.blackCell]).run {} =
        (.ok (), s') ∧
      s'.content ⟨.relative, ["a.gif"]⟩ = .ok (.image (.animation (some 0) shown)) ∧
      ¬ Plays 15 [.blackCell] shown) ∧
    ∃ s' shown, (Export.saveAnimation ⟨.relative, ["a.gif"]⟩ 15 [.blackCell, .blackCell]).run {} =
        (.ok (), s') ∧
      s'.content ⟨.relative, ["a.gif"]⟩ = .ok (.image (.animation (some 0) shown)) ∧
      Plays 15 [.blackCell, .blackCell] shown := by
  -- the general theorem in terms of the whole time that a file takes
  have hplays {frames : List (Raster Rgb)} {shown : List GifFrame}
      (h : ∃ s', (Export.saveAnimation ⟨.relative, ["a.gif"]⟩ 15 frames).run {} = (.ok (), s') ∧
        s'.content ⟨.relative, ["a.gif"]⟩ = .ok (.image (.animation (some 0) shown))) :
      Plays 15 frames shown ↔ runningTime shown = frames.length * 15 := by
    obtain ⟨s', hrun, hfile⟩ := h
    have hrun' : (Export.saveAnimation ⟨.relative, ["a.gif"]⟩ (15 : ℕ) frames).run {} =
      (.ok (), s') := hrun
    obtain ⟨merged, hmerged, hcontent, hplays, -⟩ := saved_plays_iff hrun'
    rw [hfile] at hcontent
    cases hcontent
    rw [hplays, ← runningTime_map_cut_eq_iff (hmerged.nonneg (by decide)), hmerged.runningTime_eq]
  constructor
  · have hsaved : ∃ s', (Export.saveAnimation ⟨.relative, ["a.gif"]⟩ 15 [.blackCell]).run {} =
        (.ok (), s') ∧ s'.content ⟨.relative, ["a.gif"]⟩ =
        .ok (.image (.animation (some 0) [⟨10, .blackCell⟩])) := ⟨_, rfl, rfl⟩
    have hshort := hplays hsaved
    obtain ⟨s', hrun, hfile⟩ := hsaved
    exact ⟨s', _, hrun, hfile, by rw [hshort]; decide⟩
  · have hsaved : ∃ s', (Export.saveAnimation ⟨.relative, ["a.gif"]⟩ 15
          [.blackCell, .blackCell]).run {} = (.ok (), s') ∧ s'.content ⟨.relative, ["a.gif"]⟩ =
        .ok (.image (.animation (some 0) [⟨30, .blackCell⟩])) := ⟨_, rfl, rfl⟩
    have hwhole := hplays hsaved
    obtain ⟨s', hrun, hfile⟩ := hsaved
    exact ⟨s', _, hrun, hfile, by rw [hwhole]; decide⟩

end LoopPainter
