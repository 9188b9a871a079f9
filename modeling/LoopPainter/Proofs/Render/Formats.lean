import LoopPainter.Export
import LoopPainter.Proofs.Store.Obstacles
import Mathlib.Data.List.Basic

/-!
# Stills and their suffixes

Two tables of suffixes are looked at when a canvas is saved: one tells the format, and the other
whether the picture has an opacity (`Export.plainSuffixes`).  JPEG takes no opacity, but the second
table has only two of its four suffixes.  So a canvas is refused under the other two, and under
every other suffix of a format of stills it is written (`saveCanvas_under_suffix`).  The formats
are those of `ImageFormat`, which are taken to be all.
-/

namespace LoopPainter

open Store

variable {path t : Path} {format : ImageFormat} {word : String}

/-! ## The two tables -/

namespace ImageFormat

/-- The formats of stills that a canvas can be saved in. -/
def stills : List ImageFormat :=
  [png, bmp, tiff, jpeg]

/-- The suffixes of JPEG under which a canvas is given to the writer with its opacity. -/
def unlisted : List String :=
  [".jpe", ".jfif"]

/-- What a format shows of a canvas. -/
def shown : ImageFormat → Canvas → Picture
  | png, c | tiff, c => .rgba c.toRgba
  | _, c => .rgb c.toRgb

/-- No suffix is one of two formats. -/
theorem ofSuffix?_eq_some_iff : ofSuffix? word = some format ↔ word ∈ format.suffixes := by
  have hall : ∀ format ∈ all, ∀ word ∈ format.suffixes, ofSuffix? word = some format := by decide
  constructor
  · intro h
    simpa using List.find?_some h
  · exact hall format (by cases format <;> decide) word

theorem mem_suffixes_of_unlisted (hunlisted : word ∈ unlisted) : word ∈ jpeg.suffixes := by
  have hall : ∀ word ∈ unlisted, word ∈ jpeg.suffixes := by decide
  exact hall word hunlisted

/-- Only JPEG has suffixes that are not listed. -/
theorem eq_jpeg_of_unlisted (hsuffix : word ∈ format.suffixes) (hunlisted : word ∈ unlisted) :
    format = jpeg := by
  have hformat := ofSuffix?_eq_some_iff.mpr hsuffix
  rw [ofSuffix?_eq_some_iff.mpr (mem_suffixes_of_unlisted hunlisted)] at hformat
  exact (Option.some.inj hformat).symm

theorem suffix_ne_empty (hsuffix : path.lowerSuffix ∈ format.suffixes) : path.suffix ≠ "" := by
  intro hempty
  rw [Path.lowerSuffix, hempty] at hsuffix
  cases format <;> exact absurd hsuffix (by decide)

@[simp] theorem width_shown (format : ImageFormat) (c : Canvas) :
    (format.shown c).width = c.width := by
  cases format <;> rfl

@[simp] theorem height_shown (format : ImageFormat) (c : Canvas) :
    (format.shown c).height = c.height := by
  cases format <;> rfl

end ImageFormat

/-- The writer takes the picture of a canvas except under the suffixes that are not listed. -/
theorem encode_pictureFor (hformat : format ∈ ImageFormat.stills)
    (hsuffix : path.lowerSuffix ∈ format.suffixes) (c : Canvas) :
    ImageFile.encode format {} (Export.pictureFor path c) [] =
      if path.lowerSuffix ∈ ImageFormat.unlisted then .error (.unsupportedMode .jpeg)
      else .ok (.still format (format.shown c)) := by
  unfold Export.pictureFor
  generalize path.lowerSuffix = word at hsuffix
  simp only [ImageFormat.stills, List.mem_cons, List.not_mem_nil, or_false] at hformat
  rcases hformat with rfl | rfl | rfl | rfl <;>
    simp only [ImageFormat.suffixes, List.mem_cons, List.not_mem_nil, or_false] at hsuffix
  · rcases hsuffix with rfl | rfl <;> rfl
  · subst hsuffix
    rfl
  · rcases hsuffix with rfl | rfl <;> rfl
  · rcases hsuffix with rfl | rfl | rfl | rfl <;> rfl

theorem formatFor_eq_ok (hsuffix : path.lowerSuffix ∈ format.suffixes) :
    ImageFile.formatFor {} path = .ok format := by
  simp only [ImageFile.formatFor, ImageFormat.ofSuffix?_eq_some_iff.mpr hsuffix]

theorem imageAt?_pictureFor (hformat : format ∈ ImageFormat.stills)
    (hsuffix : path.lowerSuffix ∈ format.suffixes)
    (hlisted : path.lowerSuffix ∉ ImageFormat.unlisted) (c : Canvas) :
    imageAt? path {} (Export.pictureFor path c) [] =
      some (.image (.still format (format.shown c))) := by
  rw [imageAt?, formatFor_eq_ok hsuffix]
  dsimp only
  rw [encode_pictureFor hformat hsuffix, if_neg hlisted]
  rfl

/-! ## Saving a canvas -/

namespace Canvas

/-- Every cell is looked up in the palette. -/
theorem getElem?_toRgba (c : Canvas) {x y : ℕ} (hx : x < c.width) (hy : y < c.height) :
    ∃ color, c.get x y = .ok color ∧ c.toRgba.pixels[y * c.width + x]? = some color.rgba := by
  have hin : c.Inside x y := by
    unfold Inside
    omega
  refine ⟨c.color x y hin, dif_pos hin, ?_⟩
  have hlt : y * c.width + x < c.cells.size := place_lt hin
  simp only [toRgba, Array.getElem?_map, Array.getElem?_eq_getElem hlt]
  rfl

end Canvas

theorem exists_saveCanvas (hformat : format ∈ ImageFormat.stills)
    (hsuffix : path.lowerSuffix ∈ format.suffixes)
    (hlisted : path.lowerSuffix ∉ ImageFormat.unlisted) (ht : temporaryForImage path = .ok t)
    {s : Store} (h : s.Writable path t) (c : Canvas) :
    ∃ s', (Export.saveCanvas path c).run s = (.ok (), s') ∧
      s'.content path = .ok (.image (.still format (format.shown c))) := by
  have himage := imageAt?_pictureFor hformat hsuffix hlisted c
  obtain ⟨s', hrun⟩ := (Payload.exists_ok_iff (w := .pictures {} (Export.pictureFor path c) [])
    rfl ht).mpr ⟨Option.isSome_of_eq_some himage, h⟩
  refine ⟨s', run_adapt_eq_ok_iff.mpr hrun, ?_⟩
  obtain ⟨t', content, s₁, -, hcontent, -, hreplaced⟩ := Payload.saved_of_run hrun
  obtain rfl := Option.some.inj (himage.symm.trans hcontent)
  exact hreplaced.content

theorem exists_saveCanvas_refused (hunlisted : path.lowerSuffix ∈ ImageFormat.unlisted)
    (ht : temporaryForImage path = .ok t) {s : Store} (h : s.Writable path t) (c : Canvas) :
    ∃ s', (Export.saveCanvas path c).run s =
        (.error (.save (.imageNotWritten path.toString (.image (.unsupportedMode .jpeg)))), s') ∧
      s'.find? path.place = s.find? path.place := by
  have hsuffix := ImageFormat.mem_suffixes_of_unlisted hunlisted
  have hencode := encode_pictureFor (by decide) hsuffix c
  rw [if_pos hunlisted] at hencode
  obtain ⟨s', hrun⟩ := run_saveImage_of_encode_error ht (formatFor_eq_ok hsuffix) hencode h
  refine ⟨s', by rw [Export.saveCanvas, run_adapt, hrun], ?_⟩
  obtain ⟨s₁, hgrows, hend⟩ :=
    Payload.withdrawn_of_run (w := .pictures {} (Export.pictureFor path c) []) hrun
  have hplace : s₁.find? path.place = s.find? path.place := by
    rcases hgrows path.place with heq | ⟨hmem, -⟩
    · exact heq
    · exact absurd hmem h.target.apart
  rcases hend with rfl | ⟨t', ht', hwithdrawn⟩
  · exact hplace
  · rw [hwithdrawn.others _ (beside_temporaryForImage ht').place_ne, hplace]

/-- On a store where all calls succeed, a canvas is written under every suffix of PNG, BMP, TIFF and
JPEG but two: in its size, without opacity as JPEG, and in the colors of the palette as PNG and
TIFF.  Under `.jpe` and `.jfif` it is given to the writer of JPEG with its opacity and refused, and
what was at the path stays there. -/
theorem saveCanvas_under_suffix (hformat : format ∈ ImageFormat.stills)
    (hsuffix : path.lowerSuffix ∈ format.suffixes) (c : Canvas) :
    ∃ t, temporaryForImage path = .ok t ∧ ∀ s : Store, s.Writable path t →
      (path.lowerSuffix ∉ ImageFormat.unlisted → ∃ s' picture,
        (Export.saveCanvas path c).run s = (.ok (), s') ∧
        s'.content path = .ok (.image (.still format picture)) ∧
        picture.width = c.width ∧ picture.height = c.height ∧
        (format = .jpeg → picture.mode = "RGB") ∧
        (format ∈ [ImageFormat.png, .tiff] → ∃ raster, picture = .rgba raster ∧
          ∀ x y : ℕ, x < c.width → y < c.height → ∃ color, c.get x y = .ok color ∧
            raster.pixels[y * c.width + x]? = some color.rgba)) ∧
      (path.lowerSuffix ∈ ImageFormat.unlisted → format = .jpeg ∧ ∃ s',
        (Export.saveCanvas path c).run s =
          (.error (.save (.imageNotWritten path.toString (.image (.unsupportedMode .jpeg)))), s') ∧
        s'.find? path.place = s.find? path.place) := by
  obtain ⟨t, ht⟩ := exists_temporaryForImage
    (Path.parts_ne_nil_of_suffix (ImageFormat.suffix_ne_empty hsuffix))
  refine ⟨t, ht, fun s hwritable => ⟨fun hlisted => ?_, fun hunlisted =>
    ⟨ImageFormat.eq_jpeg_of_unlisted hsuffix hunlisted,
      exists_saveCanvas_refused hunlisted ht hwritable c⟩⟩⟩
  obtain ⟨s', hrun, hcontent⟩ := exists_saveCanvas hformat hsuffix hlisted ht hwritable c
  refine ⟨s', format.shown c, hrun, hcontent, by simp, by simp, ?_, fun hopaque => ?_⟩
  · rintro rfl
    rfl
  · have hshown : format.shown c = .rgba c.toRgba := by
      rw [List.mem_pair] at hopaque
      rcases hopaque with rfl | rfl <;> rfl
    exact ⟨c.toRgba, hshown, fun x y hx hy => c.getElem?_toRgba hx hy⟩

/-- A canvas of one cell is written to `a.JPG`, and refused at `a.Jpe`. -/
theorem saveCanvas_under_suffix_letters :
    let c : Canvas := .blank 1 1 (by decide) (by decide) .red
    (∃ s picture, (Export.saveCanvas ⟨.relative, ["a.JPG"]⟩ c).run {} = (.ok (), s) ∧
      s.content ⟨.relative, ["a.JPG"]⟩ = .ok (.image (.still .jpeg picture)) ∧
      picture.width = 1 ∧ picture.height = 1 ∧ picture.mode = "RGB") ∧
    ∃ s, (Export.saveCanvas ⟨.relative, ["a.Jpe"]⟩ c).run {} =
        (.error (.save (.imageNotWritten "a.Jpe" (.image (.unsupportedMode .jpeg)))), s) ∧
      s.find? (Path.place ⟨.relative, ["a.Jpe"]⟩) = none := by
  intro c
  -- the store is empty: nothing is in the way of a file in the working directory
  have hwritable : ∀ name ∈ ["a.JPG", "a.Jpe"], ∀ t,
      temporaryForImage ⟨.relative, [name]⟩ = .ok t → Writable {} ⟨.relative, [name]⟩ t := by
    have hnoFile (q : Place) (content : Content) : ({} : Store).find? q ≠ some (.file content) := by
      unfold find?
      split <;> nofun
    intro name hname t ht
    rw [List.mem_pair] at hname
    rcases hname with rfl | rfl
    all_goals
      cases ht
      exact ⟨⟨⟨by decide, by decide, by decide⟩, fun q _ => hnoFile q⟩,
        ⟨⟨by decide, by decide, by decide⟩, by decide, by decide⟩,
        ⟨⟨by decide, by decide, by decide⟩, by decide, by decide⟩, by decide⟩
  have hupper : Path.lowerSuffix ⟨.relative, ["a.JPG"]⟩ ∈ ImageFormat.jpeg.suffixes := by decide
  have hmixed : Path.lowerSuffix ⟨.relative, ["a.Jpe"]⟩ ∈ ImageFormat.jpeg.suffixes := by decide
  obtain ⟨t, ht, hwritten⟩ := saveCanvas_under_suffix (by decide) hupper c
  obtain ⟨s, picture, hrun, hcontent, hwidth, hheight, hmode, -⟩ :=
    (hwritten {} (hwritable _ (by decide) t ht)).1 (by decide)
  obtain ⟨t', ht', hrefused⟩ := saveCanvas_under_suffix (by decide) hmixed c
  obtain ⟨-, s', hrun', hplace⟩ := (hrefused {} (hwritable _ (by decide) t' ht')).2 (by decide)
  exact ⟨⟨s, picture, hrun, hcontent, hwidth, hheight, hmode rfl⟩, s', hrun', hplace⟩

end LoopPainter
