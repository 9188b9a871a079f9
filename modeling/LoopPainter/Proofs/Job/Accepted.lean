import LoopPainter.Proofs.Job.Replay
import LoopPainter.Proofs.Store.Scratch
import LoopPainter.Sampler

/-!
# Accepted jobs

A job that was read from a mapping is read again from the values that it lists, whatever forms the
values of the mapping had (`Accepts.again`).  Its numbers are those that were given and lie within
their limits, and its output has a suffix.  So nothing that is set up before the program runs is
refused: the canvas, the sampler, and the name of the file that the drawing is written to first
(`ofPairs_stable_and_ready`).
-/

namespace LoopPainter

namespace Store

variable {path t : Path}

/-- The temporary name of an image is a name if the target has one. -/
theorem isName_temporaryForImage (h : temporaryForImage path = .ok t)
    (hname : Path.IsName path.name.toList) : Path.IsName t.name.toList := by
  have htail : t.name.toList = path.stem.toList ++ ".tmp".toList ++ path.suffix.toList := by
    rw [Path.name_of_withName h, String.toList_append, String.toList_append]
  have hparts : path.name.toList = path.stem.toList ++ path.suffix.toList := by
    rw [← String.toList_append, Path.stem_append_suffix]
  have hdots : ".tmp".toList = ['.', 't', 'm', 'p'] := rfl
  rw [htail, hdots]
  refine ⟨by simp, ?_, ?_⟩
  · -- the name has more than one character
    intro hdot
    have hlength := congrArg List.length hdot
    simp only [List.length_append, List.length_cons, List.length_nil] at hlength
    omega
  · have hslash := hname.noSlash
    rw [hparts] at hslash
    simp_all

end Store

namespace Job

variable {pairs : List (Datum × Datum)} {j : Job}

/-! ## Reading the job again -/

/-- An accepted job is read again from the values that it lists. -/
theorem Accepts.again (h : Accepts pairs j) : ofPairs j.toPairs = .ok j :=
  ofPairs_listed_iff.mpr (reads_value h)

/-! ## What was given -/

/-- A field that is read in two ways has two values that belong together, also where it has its
default. -/
theorem optional_eq_ok_of {α β : Type} {read : Datum → Except Cause α}
    {read' : Datum → Except Cause β} {fallback a : α} {given : Option Datum} (f : α → β)
    (hread : ∀ d, ∀ a, read d = .ok a → read' d = .ok (f a))
    (h : optional fallback read given = .ok a) :
    optional (f fallback) read' given = .ok (f a) := by
  cases given with
  | none => exact congrArg (Except.ok ∘ f) (Except.ok.inj h)
  | some d => exact hread d a h

theorem Accepts.width_given (h : Accepts pairs j) :
    optional 256 readWhole (given? pairs .width) = .ok (j.width.val : ℤ) :=
  optional_eq_ok_of (fun n : Side => (n.val : ℤ)) (fun _ _ => readSide_eq_ok_iff.mp) h.width

theorem Accepts.height_given (h : Accepts pairs j) :
    optional 256 readWhole (given? pairs .height) = .ok (j.height.val : ℤ) :=
  optional_eq_ok_of (fun n : Side => (n.val : ℤ)) (fun _ _ => readSide_eq_ok_iff.mp) h.height

theorem Accepts.interval_given (h : Accepts pairs j) :
    optional 100 readWhole (given? pairs .interval) = .ok (j.interval.val : ℤ) :=
  optional_eq_ok_of (fun n : Interval => (n.val : ℤ)) (fun _ _ => readInterval_eq_ok_iff.mp)
    h.interval

/-! ## What is set up -/

/-- The canvas of a job can be made. -/
theorem make_canvas (j : Job) :
    Canvas.make j.width.val j.height.val j.background = .ok j.canvas := by
  have hwidth := j.width.property.1
  have hheight := j.height.property.1
  rw [Canvas.make, dif_pos (by omega)]
  rfl

/-- The sampler of a job can be made, whatever the length of a pause is. -/
theorem exists_make_sampler (j : Job) (quantum : ℤ) :
    ∃ sampler, Sampler.make j.interval.val quantum = .ok sampler := by
  have hinterval := j.interval.property
  rw [Sampler.make, if_neg (by omega)]
  exact ⟨_, rfl⟩

/-- The drawing of an accepted job has a temporary name beside its output, one that a file can have
and with the suffix of the output. -/
theorem Accepts.exists_temporary (h : Accepts pairs j) :
    ∃ t, Store.temporaryForImage j.output.val = .ok t ∧ t.parent = j.output.val.parent ∧
      Path.IsName t.name.toList ∧ t.suffix = j.output.val.suffix := by
  have hparts := Path.parts_ne_nil_of_suffix j.output.property
  obtain ⟨t, ht⟩ := Store.exists_temporaryForImage hparts
  refine ⟨t, ht, (Store.beside_temporaryForImage ht).parent_eq,
    Store.isName_temporaryForImage ht ?_, Store.suffix_temporaryForImage ht j.output.property⟩
  obtain ⟨text, htext⟩ := h.exists_output
  have hmem : j.output.val.name ∈ (Path.ofString text).parts := by
    rw [← htext, Path.parts_eq hparts]
    exact List.mem_append_right _ List.mem_cons_self
  exact (Path.mem_parts_ofString hmem).1

/-- The job that a mapping gives is given again by the values that it lists.  Its numbers are those
of the mapping and within their limits, its output has a suffix, and nothing that is set up from it
is refused. -/
theorem ofPairs_stable_and_ready (h : ofPairs pairs = .ok j) :
    (ofPairs j.toPairs = .ok j ∧ (ofPairs j.toPairs).map toDatum = .ok j.toDatum) ∧
    (optional 256 readWhole (given? pairs .width) = .ok (j.width.val : ℤ) ∧
      1 ≤ j.width.val ∧ j.width.val ≤ 16384) ∧
    (optional 256 readWhole (given? pairs .height) = .ok (j.height.val : ℤ) ∧
      1 ≤ j.height.val ∧ j.height.val ≤ 16384) ∧
    (optional 100 readWhole (given? pairs .interval) = .ok (j.interval.val : ℤ) ∧
      1 ≤ j.interval.val) ∧
    j.output.val.suffix ≠ "" ∧
    Canvas.make j.width.val j.height.val j.background = .ok j.canvas ∧
    (∃ sampler, Sampler.make j.interval.val = .ok sampler) ∧
    ∃ t, Store.temporaryForImage j.output.val = .ok t ∧ t.parent = j.output.val.parent ∧
      Path.IsName t.name.toList ∧ t.suffix = j.output.val.suffix := by
  have haccepts := ofPairs_eq_ok_iff.mp h
  refine ⟨⟨haccepts.again, ?_⟩, ⟨haccepts.width_given, j.width.property⟩,
    ⟨haccepts.height_given, j.height.property⟩, ⟨haccepts.interval_given, j.interval.property⟩,
    j.output.property, j.make_canvas, j.exists_make_sampler _, haccepts.exists_temporary⟩
  rw [haccepts.again]
  rfl

/-- Values in other forms than those that the job lists: the second key of the schema, a width as
text with blanks and an underscore, a height as a floating-point number, a truth value for the time
between frames, a color in other letters, and a path with more slashes than it needs. -/
theorem ofPairs_stable_and_ready_coerced :
    ∃ j, ofPairs [(.text "schema_version", .text "render_job.v1"), (.text "width", .text " 1_2.0 "),
        (.text "height", .float (.finite false 7881299347898368 (-50))),
        (.text "interval_ms", .bool true), (.text "background", .text " rED "),
        (.text "output", .text "a//./b.PNG"), (.text "commands", .text "F")] = .ok j ∧
      ofPairs j.toPairs = .ok j ∧
      j.toPairs = [(.text "schema", .text "render_job.v1"), (.text "width", .int 12),
        (.text "height", .int 7), (.text "background", .text "Red"), (.text "interval_ms", .int 1),
        (.text "output", .text "a/b.PNG"), (.text "commands", .text "F"),
        (.text "summary", .null)] ∧
      Canvas.make 12 7 .red = .ok j.canvas ∧
      Store.temporaryForImage ⟨.relative, ["a", "b.PNG"]⟩ =
        .ok ⟨.relative, ["a", "b.tmp.PNG"]⟩ := by
  obtain ⟨j, hj⟩ : ∃ j, ofPairs [(.text "schema_version", .text "render_job.v1"),
      (.text "width", .text " 1_2.0 "),
      (.text "height", .float (.finite false 7881299347898368 (-50))),
      (.text "interval_ms", .bool true), (.text "background", .text " rED "),
      (.text "output", .text "a//./b.PNG"), (.text "commands", .text "F")] = .ok j := ⟨_, rfl⟩
  obtain ⟨⟨hagain, -⟩, -, -, -, -, hcanvas, -, -⟩ := ofPairs_stable_and_ready hj
  cases hj
  exact ⟨_, rfl, hagain, rfl, hcanvas, rfl⟩

end Job

end LoopPainter
