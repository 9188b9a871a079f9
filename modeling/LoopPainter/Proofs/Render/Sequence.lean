import LoopPainter.Proofs.Render.Outcome

/-!
# Renders one after the other

What a render has written stays as long as no later write has it for its target or for its temporary
file (`Writes.keeps`).  The second condition is not idle: the temporary file of `a.png` is
`a.tmp.png`, which may be the output of an earlier render.

Paths are told apart by their places.  A path from the root, one from the working directory and one
that leaves it by `..` never have the same place, even where a real store would lead them to one
file (`Path.origin`); what is said here is about paths of one kind.
-/

namespace LoopPainter

open Drawing Store

/-! ## Writes -/

/-- Writes that succeed, one after the other. -/
inductive Writes : Store → List (Path × Payload) → Store → Prop
  | nil (s : Store) : Writes s [] s
  | cons {path : Path} {w : Payload} {ws : List (Path × Payload)} {s s₁ s' : Store}
      (h : (w.save path).run s = (.ok (), s₁)) (hrest : Writes s₁ ws s') :
      Writes s ((path, w) :: ws) s'

/-- Renders that succeed, one after the other. -/
inductive Renders : Store → List Job → Store → Prop
  | nil (s : Store) : Renders s [] s
  | cons {j : Job} {jobs : List Job} {s s₁ s' : Store} {r : Rendered} {notes : List Note}
      (h : render j s = (.ok r, s₁, notes)) (hrest : Renders s₁ jobs s') :
      Renders s (j :: jobs) s'

variable {s s₁ s' : Store} {path p : Path} {w : Payload} {c : Content}
  {ws ws' : List (Path × Payload)} {jobs : List Job}

theorem Writes.append (h : Writes s ws s₁) (h' : Writes s₁ ws' s') : Writes s (ws ++ ws') s' := by
  induction h with
  | nil s => exact h'
  | cons hsave _ ih => exact .cons hsave (ih h')

/-- A file lies apart from a target and its temporary path. -/
def Writes.Apart (p : Path) (target : Path × Except Path.Fault Path) : Prop :=
  p.place ≠ target.1.place ∧ ∀ t, target.2 = .ok t → p.place ≠ t.place

instance (p : Path) (target : Path × Except Path.Fault Path) : Decidable (Writes.Apart p target) :=
  match target with
  | (path, .ok t) =>
    decidable_of_iff (p.place ≠ path.place ∧ p.place ≠ t.place)
      ⟨fun h => ⟨h.1, fun _ ht => Except.ok.inj ht ▸ h.2⟩, fun h => ⟨h.1, h.2 t rfl⟩⟩
  | (path, .error _) => decidable_of_iff (p.place ≠ path.place) ⟨fun h => ⟨h, nofun⟩, And.left⟩

/-- The target of a write and the temporary path that it uses. -/
def Writes.target (a : Path × Payload) : Path × Except Path.Fault Path :=
  (a.1, a.2.temporary a.1)

/-- A file stays if it lies apart from all that is written. -/
theorem Writes.keeps (h : Writes s ws s') (hcontent : s.content p = .ok c)
    (hapart : ∀ a ∈ ws, Apart p (target a)) : s'.content p = .ok c := by
  induction h with
  | nil s => exact hcontent
  | @cons path w ws s s₁ s' hsave _ ih =>
      obtain ⟨hne, hne'⟩ := hapart (path, w) List.mem_cons_self
      exact ih (Payload.content_of_run hsave hcontent hne hne')
        fun a ha => hapart a (List.mem_cons_of_mem _ ha)

/-- At the end every file holds what was written to it, if it lies apart from all that was written
later. -/
theorem Writes.content (h : Writes s ws s')
    (hapart : ws.Pairwise fun a b => Apart a.1 (target b)) :
    ∀ a ∈ ws, ∃ c, a.2.content? a.1 = some c ∧ s'.content a.1 = .ok c := by
  induction h with
  | nil s => simp
  | @cons path w ws s s₁ s' hsave hrest ih =>
      obtain ⟨hfirst, hlater⟩ := List.pairwise_cons.mp hapart
      intro a ha
      -- the first file has to outlast all later writes, and the others are a shorter sequence
      rcases List.mem_cons.mp ha with rfl | ha
      · obtain ⟨t, c, s₀, -, hnew, -, hreplaced⟩ := Payload.saved_of_run hsave
        exact ⟨c, hnew, hrest.keeps hreplaced.content hfirst⟩
      · exact ih hlater a ha

/-! ## The writes of a render -/

namespace Drawing

/-- What is written of a drawing, and where to. -/
def files (j : Job) (d : Drawing) : List (Path × Payload) :=
  (d.image? j).toList.map (fun w => (j.output.val, w)) ++
    j.summary.toList.map (fun path => (path, .document (d.summary j)))

theorem files_of_render {r : Rendered} {notes : List Note}
    (h : render j s = (.ok r, s', notes)) :
    ((ofJob j).image? j).isSome ∧ Writes s ((ofJob j).files j) s' := by
  obtain ⟨-, -, s₁, himage, hsummary⟩ := exists_render_eq_ok_iff.mp ⟨notes, h⟩
  obtain ⟨w, hw, hsave⟩ := saveImage_eq_ok_iff.mp himage
  refine ⟨by simp [hw], ?_⟩
  rw [files, hw]
  refine Writes.append (.cons hsave (.nil s₁)) ?_
  cases hj : j.summary with
  | none =>
      rw [run_saveSummary_of_none hj] at hsummary
      cases hsummary
      exact .nil s'
  | some path =>
      rw [saveSummary, hj] at hsummary
      exact .cons hsummary (.nil s')

theorem temporary_of_image? {d : Drawing} (h : d.image? j = some w) (path : Path) :
    w.temporary path = temporaryForImage path := by
  unfold image? at h
  split at h
  · split at h
    · cases h
    · cases h
      rfl
  · cases h
    rfl

end Drawing

/-- The targets of a job and the temporary paths that are used for them. -/
def Job.targets (j : Job) : List (Path × Except Path.Fault Path) :=
  (j.output.val, temporaryForImage j.output.val) ::
    j.summary.toList.map fun path => (path, temporaryForBytes path)

theorem map_target_files {d : Drawing} (h : (d.image? j).isSome) :
    (d.files j).map Writes.target = j.targets := by
  obtain ⟨w, hw⟩ := Option.isSome_iff_exists.mp h
  have htemporary := temporary_of_image? hw j.output.val
  rw [files, hw, Job.targets]
  cases j.summary with
  | none => simp [Writes.target, htemporary]
  | some path =>
      simp only [Option.toList_some, List.map_cons, List.map_nil, List.cons_append, List.nil_append,
        Writes.target, htemporary]
      rfl

/-! ## Sequences of renders -/

theorem Renders.files (h : Renders s jobs s') :
    (∀ j ∈ jobs, ((ofJob j).image? j).isSome) ∧
      Writes s (jobs.flatMap fun j => (ofJob j).files j) s' := by
  induction h with
  | nil s => exact ⟨by simp, .nil s⟩
  | cons hrender _ ih =>
      obtain ⟨himage, hwrites⟩ := files_of_render hrender
      refine ⟨?_, ?_⟩
      · simpa using ⟨himage, ih.1⟩
      · rw [List.flatMap_cons]
        exact hwrites.append ih.2

/-- After renders that all succeeded, every output is the image of its own job and every summary the
one of its own job, if no path that was written is the target of a later write or the temporary path
of one. -/
theorem renders_keep_files (h : Renders s jobs s')
    (hapart : (jobs.flatMap Job.targets).Pairwise fun a b => Writes.Apart a.1 b) :
    ∀ j ∈ jobs,
      (∃ w c, (ofJob j).image? j = some w ∧ w.content? j.output.val = some c ∧
        s'.content j.output.val = .ok c) ∧
      ∀ path, j.summary = some path →
        s'.content path =
          .ok (.bytes (String.ofList (Yaml.dump ((ofJob j).summary j))).toUTF8) := by
  obtain ⟨himage, hwrites⟩ := h.files
  -- renders that succeed write to the targets of their jobs, in order
  have htargets : (jobs.flatMap fun j => (ofJob j).files j).map Writes.target =
      jobs.flatMap Job.targets := by
    rw [List.map_flatMap]
    exact List.flatMap_congr fun j hj => map_target_files (himage j hj)
  rw [← htargets, List.pairwise_map] at hapart
  have hall := hwrites.content hapart
  intro j hj
  obtain ⟨w, hw⟩ := Option.isSome_iff_exists.mp (himage j hj)
  constructor
  · have hmem : (j.output.val, w) ∈ jobs.flatMap fun j => (ofJob j).files j :=
      List.mem_flatMap.mpr ⟨j, hj, by simp [files, hw]⟩
    obtain ⟨c, hnew, hcontent⟩ := hall _ hmem
    exact ⟨w, c, hw, hnew, hcontent⟩
  · intro path hpath
    have hmem : (path, Payload.document ((ofJob j).summary j)) ∈
        jobs.flatMap fun j => (ofJob j).files j :=
      List.mem_flatMap.mpr ⟨j, hj, by simp [files, hpath]⟩
    obtain ⟨c, hnew, hcontent⟩ := hall _ hmem
    obtain rfl := Option.some.inj hnew
    exact hcontent

/-- Two renders can share a directory. -/
theorem renders_keep_files_two_outputs :
    ∃ s' c c',
      Renders {} [.onOneCell ⟨⟨.relative, ["a.png"]⟩, by decide⟩ "F",
        .onOneCell ⟨⟨.relative, ["b.bmp"]⟩, by decide⟩ "" (some ⟨.relative, ["b.yaml"]⟩)] s' ∧
      s'.content ⟨.relative, ["a.png"]⟩ = .ok c ∧ s'.content ⟨.relative, ["b.bmp"]⟩ = .ok c' := by
  let j : Job := .onOneCell ⟨⟨.relative, ["a.png"]⟩, by decide⟩ "F"
  let j' : Job :=
    .onOneCell ⟨⟨.relative, ["b.bmp"]⟩, by decide⟩ "" (some ⟨.relative, ["b.yaml"]⟩)
  have hwrites (c c' : Canvas) (d : Datum) : ∃ s₁ s₂ s₃,
      (Export.saveCanvas ⟨.relative, ["a.png"]⟩ c).run {} = (.ok (), s₁) ∧
      (Export.saveCanvas ⟨.relative, ["b.bmp"]⟩ c').run s₁ = (.ok (), s₂) ∧
      (saveBytes ⟨.relative, ["b.yaml"]⟩ (String.ofList (Yaml.dump d)).toUTF8).run s₂ =
        (.ok (), s₃) :=
    ⟨_, _, _, rfl, rfl, rfl⟩
  obtain ⟨s₁, s₂, s₃, himage, himage', hsummary⟩ :=
    hwrites (ofJob j).machine.canvas (ofJob j').machine.canvas ((ofJob j').summary j')
  rw [← Payload.save_document (hasLongNumber_summary_onOneCell _ (by decide) _)] at hsummary
  obtain ⟨notes, hrender⟩ := exists_render_still (j := j) (by decide) (by decide) himage
    (run_saveSummary_of_none rfl _ s₁)
  obtain ⟨notes', hrender'⟩ :=
    exists_render_still (j := j') (by decide) (by decide) himage' hsummary
  have hrenders : Renders {} [j, j'] s₃ := .cons hrender (.cons hrender' (.nil s₃))
  have hkeep := renders_keep_files hrenders (by decide)
  obtain ⟨⟨w, c, -, -, hc⟩, -⟩ := hkeep j (by simp)
  obtain ⟨⟨w', c', -, -, hc'⟩, -⟩ := hkeep j' (by simp)
  exact ⟨s₃, c, c', hrenders, hc, hc'⟩

/-- The temporary file of a later output can be an earlier output, and then this is gone. -/
theorem renders_lose_output :
    ∃ s',
      Renders {} [.onOneCell ⟨⟨.relative, ["a.tmp.png"]⟩, by decide⟩ "",
        .onOneCell ⟨⟨.relative, ["a.png"]⟩, by decide⟩ ""] s' ∧
      Path.place ⟨.relative, ["a.tmp.png"]⟩ ≠ Path.place ⟨.relative, ["a.png"]⟩ ∧
      s'.content ⟨.relative, ["a.tmp.png"]⟩ = .error ⟨.notFound, "a.tmp.png"⟩ := by
  let j : Job := .onOneCell ⟨⟨.relative, ["a.tmp.png"]⟩, by decide⟩ ""
  let j' : Job := .onOneCell ⟨⟨.relative, ["a.png"]⟩, by decide⟩ ""
  have hwrites (c c' : Canvas) : ∃ s₁ s₂,
      (Export.saveCanvas ⟨.relative, ["a.tmp.png"]⟩ c).run {} = (.ok (), s₁) ∧
      (Export.saveCanvas ⟨.relative, ["a.png"]⟩ c').run s₁ = (.ok (), s₂) ∧
      s₂.content ⟨.relative, ["a.tmp.png"]⟩ = .error ⟨.notFound, "a.tmp.png"⟩ :=
    ⟨_, _, rfl, rfl, rfl⟩
  obtain ⟨s₁, s₂, himage, himage', hlost⟩ :=
    hwrites (ofJob j).machine.canvas (ofJob j').machine.canvas
  obtain ⟨notes, hrender⟩ := exists_render_still (j := j) (by decide) (by decide) himage
    (run_saveSummary_of_none rfl _ s₁)
  obtain ⟨notes', hrender'⟩ := exists_render_still (j := j') (by decide) (by decide) himage'
    (run_saveSummary_of_none rfl _ s₂)
  exact ⟨s₂, .cons hrender (.cons hrender' (.nil s₂)), by decide, hlost⟩

end LoopPainter
