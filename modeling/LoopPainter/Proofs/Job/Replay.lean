import LoopPainter.Job.Reader
import LoopPainter.Proofs.Path
import LoopPainter.Proofs.Yaml.Scalars

/-!
# Jobs read from their own fields

A mapping gives a job exactly if every field is read as the value of the job and no key is unknown
(`ofPairs_eq_ok_iff`).  The values that a job lists are read in that way if the job was itself read
from a mapping (`reads_value`).  Texts that went through a file may have changed (`Yaml.readBack`),
and then they give another job or none (`reads_readScalar_iff`).
-/

namespace LoopPainter

namespace Job

variable {j : Job} {g : Field → Datum} {d : Datum} {pairs : List (Datum × Datum)} {path : Path}

/-! ## When a mapping gives a job -/

/-- Every field of the job is read from what a mapping gives for it, and there is nothing else. -/
structure Accepts (pairs : List (Datum × Datum)) (j : Job) : Prop where
  named : pairs.all isNamed = true
  schema : optional () readSchema (given? pairs .schema) = .ok ()
  width : optional defaultSide readSide (given? pairs .width) = .ok j.width
  height : optional defaultSide readSide (given? pairs .height) = .ok j.height
  background :
    optional defaultBackground readBackground (given? pairs .background) = .ok j.background
  interval : optional defaultInterval readInterval (given? pairs .interval) = .ok j.interval
  output : required readOutput (given? pairs .output) = .ok j.output
  commands : required readText (given? pairs .commands) = .ok j.commands
  summary : optional none readOptionalPath (given? pairs .summary) = .ok j.summary
  known : unknownKeys pairs = []

theorem ofPairs_eq_ok_iff : ofPairs pairs = .ok j ↔ Accepts pairs j := by
  unfold ofPairs
  constructor
  · intro h
    split at h
    · next hnamed =>
        dsimp only at h
        split at h
        · next hschema hwidth hheight hbackground hinterval houtput hcommands hsummary hknown =>
            cases h
            exact ⟨hnamed, hschema, hwidth, hheight, hbackground, hinterval, houtput, hcommands,
              hsummary, hknown⟩
        · cases h
    · cases h
  · rintro ⟨hnamed, hschema, hwidth, hheight, hbackground, hinterval, houtput, hcommands, hsummary,
      hknown⟩
    rw [if_pos hnamed, hschema, hwidth, hheight, hbackground, hinterval, houtput, hcommands,
      hsummary, hknown]

/-! ## A value for every field -/

/-- The value of every field of the job is read from what is given for it. -/
structure Reads (g : Field → Datum) (j : Job) : Prop where
  schema : readSchema (g .schema) = .ok ()
  width : readSide (g .width) = .ok j.width
  height : readSide (g .height) = .ok j.height
  background : readBackground (g .background) = .ok j.background
  interval : readInterval (g .interval) = .ok j.interval
  output : readOutput (g .output) = .ok j.output
  commands : readText (g .commands) = .ok j.commands
  summary : readOptionalPath (g .summary) = .ok j.summary

/-- The mapping with a value for every field. -/
def listed (g : Field → Datum) : List (Datum × Datum) :=
  Field.all.map fun f => (.text f.key, g f)

theorem given?_listed (g : Field → Datum) (f : Field) : given? (listed g) f = some (g f) := by
  have hget (f : Field) : Datum.get? f.key (listed g) = some (g f) := by
    cases f <;> rfl
  have hkey : keyOf (listed g) f = f.key := by
    rw [keyOf, hget, Option.isNone_some, Bool.and_false, Bool.false_and, if_neg Bool.false_ne_true]
  rw [given?, hkey, hget]

theorem ofPairs_listed_iff : ofPairs (listed g) = .ok j ↔ Reads g j := by
  rw [ofPairs_eq_ok_iff]
  constructor
  · rintro ⟨-, hschema, hwidth, hheight, hbackground, hinterval, houtput, hcommands, hsummary, -⟩
    rw [given?_listed] at *
    exact ⟨hschema, hwidth, hheight, hbackground, hinterval, houtput, hcommands, hsummary⟩
  · rintro ⟨hschema, hwidth, hheight, hbackground, hinterval, houtput, hcommands, hsummary⟩
    refine ⟨rfl, ?_, ?_, ?_, ?_, ?_, ?_, ?_, ?_, rfl⟩
    all_goals rwa [given?_listed]

/-! ## The values of a job -/

theorem exists_of_readPath (h : readPath d = .ok path) : ∃ text, path = Path.ofString text := by
  unfold readPath at h
  split at h
  · next text =>
      cases h
      exact ⟨text, rfl⟩
  · cases h

theorem exists_of_readOutput {output : OutputPath} (h : readOutput d = .ok output) :
    ∃ text, output.val = Path.ofString text := by
  obtain ⟨path, hpath, h⟩ := exists_of_bind h
  obtain ⟨text, rfl⟩ := exists_of_readPath hpath
  split at h
  · exact ⟨text, (congrArg Subtype.val (Except.ok.inj h)).symm⟩
  · cases h

theorem exists_of_readOptionalPath (h : readOptionalPath d = .ok (some path)) :
    ∃ text, path = Path.ofString text := by
  unfold readOptionalPath at h
  split at h
  · cases h
  · obtain ⟨path', hpath, heq⟩ := exists_of_map h
    cases heq
    exact exists_of_readPath hpath

/-- The output path of a job that was read from a mapping was read from a text. -/
theorem Accepts.exists_output (h : Accepts pairs j) :
    ∃ text, j.output.val = Path.ofString text := by
  have houtput := h.output
  unfold required at houtput
  split at houtput
  · cases houtput
  · exact exists_of_readOutput houtput

/-- The summary path of a job that was read from a mapping was read from a text. -/
theorem Accepts.exists_summary (h : Accepts pairs j) (hpath : j.summary = some path) :
    ∃ text, path = Path.ofString text := by
  have hsummary := h.summary
  rw [hpath] at hsummary
  unfold optional at hsummary
  split at hsummary
  · cases hsummary
  · exact exists_of_readOptionalPath hsummary

/-- The side of a canvas is the number that was given. -/
theorem readSide_eq_ok_iff {n : Side} : readSide d = .ok n ↔ readWhole d = .ok (n.val : ℤ) := by
  obtain ⟨n, hpos, hle⟩ := n
  rw [readSide]
  cases readWhole d with
  | error cause => exact iff_of_false nofun nofun
  | ok i =>
      simp only [Bind.bind, Except.bind, Except.ok.injEq]
      split
      · exact iff_of_false nofun (by omega)
      · split
        · simp only [Pure.pure, Except.pure, Except.ok.injEq, Subtype.mk.injEq]
          omega
        · exact iff_of_false nofun (by omega)

/-- The time between frames is the number that was given. -/
theorem readInterval_eq_ok_iff {n : Interval} :
    readInterval d = .ok n ↔ readWhole d = .ok (n.val : ℤ) := by
  obtain ⟨n, hpos⟩ := n
  rw [readInterval]
  cases readWhole d with
  | error cause => exact iff_of_false nofun nofun
  | ok i =>
      simp only [Bind.bind, Except.bind, Except.ok.injEq]
      split
      · simp only [Pure.pure, Except.pure, Except.ok.injEq, Subtype.mk.injEq]
        omega
      · exact iff_of_false nofun (by omega)

/-- A color that is given as itself is the one that is read. -/
theorem readBackground_colorValue (c : Color) : readBackground (colorValue c) = .ok c := by
  have hread : Vocabulary.read Color c.word = .ok c := by
    cases c <;> decide
  have hshown : (Datum.text c.word).displayString = c.word := String.ofList_toList
  have hlong : (Datum.text c.word).hasLongNumber = false := rfl
  rw [colorValue, readBackground, hlong, if_neg Bool.false_ne_true, hshown, hread]
  rfl

theorem readOutput_text (text : String) (output : OutputPath) :
    readOutput (.text text) = .ok output ↔ Path.ofString text = output.val := by
  have hread : readPath (.text text) = .ok (Path.ofString text) := rfl
  rw [readOutput, hread]
  simp only [Bind.bind, Except.bind]
  split
  · exact ⟨fun h => congrArg Subtype.val (Except.ok.inj h), fun h => congrArg _ (Subtype.ext h)⟩
  · next hsuffix =>
      refine iff_of_false nofun fun h => hsuffix ?_
      rw [h]
      exact output.property

/-- The values that a job lists are read as the job again, if its paths were read from texts. -/
theorem reads_value (h : Accepts pairs j) : Reads j.value j where
  schema := rfl
  width := readSide_eq_ok_iff.mpr rfl
  height := readSide_eq_ok_iff.mpr rfl
  background := readBackground_colorValue j.background
  interval := readInterval_eq_ok_iff.mpr rfl
  output := by
    obtain ⟨text, htext⟩ := h.exists_output
    rw [value, readOutput_text, htext]
    exact Path.ofString_toString_ofString text
  commands := rfl
  summary := by
    rw [value]
    cases hpath : j.summary with
    | none => rfl
    | some path =>
        obtain ⟨text, rfl⟩ := h.exists_summary hpath
        exact congrArg (Except.ok ∘ some) (Path.ofString_toString_ofString text)

/-! ## Values that went through a file -/

theorem label_key (f : Field) : Yaml.Label f.key.toList := by
  cases f <;> exact Yaml.label_of_all (by decide) (by decide) (by decide) (by decide)

/-- A path is read again exactly if its text has not changed. -/
theorem ofString_readBack_iff (text : String) :
    Path.ofString (String.ofList (Yaml.readBack (Path.ofString text).toString.toList)) =
        Path.ofString text ↔
      Yaml.readBack (Path.ofString text).toString.toList =
        (Path.ofString text).toString.toList := by
  generalize hpath : Path.ofString text = path
  constructor
  · intro h
    rw [Yaml.readBack_eq_self_iff]
    intro hmem
    by_contra hstyle
    -- the character of the path could come from nowhere
    rw [← h] at hmem
    rcases Path.mem_toString_ofString hmem with hmem | hmem | hmem
    · rw [String.toList_ofList] at hmem
      exact Yaml.not_mem_readBack hstyle hmem
    · cases hmem
    · cases hmem
  · intro h
    rw [h, String.ofList_toList, ← hpath, Path.ofString_toString_ofString]

/-- The texts that a job lists as they were given. -/
def texts (j : Job) : List String :=
  [j.output.val.toString, j.commands] ++ j.summary.toList.map Path.toString

theorem readBack_word (c : Color) : Yaml.readBack c.word.toList = c.word.toList :=
  Yaml.readBack_of_not_mem (by cases c <;> decide)

/-- The values of a job that went through a file are read as the job again exactly if no text has
changed. -/
theorem reads_readScalar_iff (h : Accepts pairs j) :
    Reads (fun f => Yaml.readScalar (j.value f)) j ↔
      ∀ text ∈ j.texts, Yaml.readBack text.toList = text.toList := by
  obtain ⟨output, houtput⟩ := h.exists_output
  constructor
  · intro hreads text htext
    rw [texts, List.mem_append, List.mem_pair, List.mem_map] at htext
    rcases htext with (rfl | rfl) | ⟨path, hpath, rfl⟩
    · have hread := (readOutput_text _ _).mp hreads.output
      rw [houtput] at hread ⊢
      exact (ofString_readBack_iff output).mp hread
    · have hread : String.ofList (Yaml.readBack j.commands.toList) = j.commands :=
        Except.ok.inj hreads.commands
      rw [← String.toList_inj, String.toList_ofList] at hread
      exact hread
    · rw [Option.mem_toList] at hpath
      obtain ⟨summary, rfl⟩ := h.exists_summary hpath
      have hread := hreads.summary
      simp only [value, hpath] at hread
      exact (ofString_readBack_iff summary).mp (Option.some.inj (Except.ok.inj hread))
  · intro htexts
    have htext (text : String) (h : Yaml.readBack text.toList = text.toList) :
        Yaml.readScalar (.text text) = .text text := by
      rw [Yaml.readScalar, h, String.ofList_toList]
    -- the other values of a job are written and read without change, whatever they are
    have hvalues : (fun f => Yaml.readScalar (j.value f)) = j.value := by
      funext f
      cases f with
      | width | height | interval => rfl
      | schema => exact htext _ (Yaml.readBack_of_not_mem (by decide))
      | background => exact htext _ (readBack_word _)
      | output => exact htext _ (htexts _ (by simp [texts]))
      | commands => exact htext _ (htexts _ (by simp [texts]))
      | summary =>
          cases hpath : j.summary with
          | none => simp [value, hpath, Yaml.readScalar]
          | some path =>
              simp only [value, hpath]
              exact htext _ (htexts _ (by simp [texts, hpath]))
    rw [hvalues]
    exact reads_value h

end Job

end LoopPainter
