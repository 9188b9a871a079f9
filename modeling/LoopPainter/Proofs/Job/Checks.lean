import LoopPainter.Proofs.Job.Replay
import LoopPainter.Proofs.Names

/-!
# The issues of a mapping

Whether a mapping gives a job is decided field by field.  Every field has its own check, which looks
at nothing but the value that is given for the field (`Field.cause?`), and the issues of the mapping
are those of its fields and the names that are no field (`builds_iff`, `ofPairs_eq_error`).  No key
is one of two fields, so no key is reported twice (`nodup_keys_issues`).
-/

namespace LoopPainter.Job

variable {α : Type} {pairs : List (Datum × Datum)} {key : String} {f : Field} {issue : Issue}

/-! ## Checks of the fields -/

/-- The cause of a refusal. -/
def refusal? : Except Cause α → Option Cause
  | .ok _ => none
  | .error cause => some cause

/-- What is wrong with what is given for a field, if anything. -/
def Field.cause? (f : Field) (given : Option Datum) : Option Cause :=
  match f with
  | .schema => refusal? (optional () readSchema given)
  | .width | .height => refusal? (optional defaultSide readSide given)
  | .background => refusal? (optional defaultBackground readBackground given)
  | .interval => refusal? (optional defaultInterval readInterval given)
  | .output => refusal? (required readOutput given)
  | .commands => refusal? (required readText given)
  | .summary => refusal? (optional none readOptionalPath given)

/-- The issues of a mapping: those of the fields, and the names that are no field. -/
def issues (pairs : List (Datum × Datum)) : List Issue :=
  (Field.all.flatMap fun f => (f.cause? (given? pairs f)).toList.map (Issue.mk (keyOf pairs f))) ++
    unknownKeys pairs

theorem mem_all (f : Field) : f ∈ Field.all := by
  cases f <;> decide

theorem refusal?_eq_none_iff {r : Except Cause α} : refusal? r = none ↔ ∃ v, r = .ok v := by
  cases r <;> simp [refusal?]

theorem issueOf_eq (pairs : List (Datum × Datum)) (f : Field) (r : Except Cause α) :
    issueOf pairs f r = (refusal? r).toList.map (Issue.mk (keyOf pairs f)) := by
  cases r <;> rfl

/-- A mapping gives a job. -/
def Builds (pairs : List (Datum × Datum)) : Prop :=
  ∃ j, ofPairs pairs = .ok j

/-- A mapping with texts for keys gives a job exactly if it has no issue. -/
theorem builds_iff (hnamed : pairs.all isNamed = true) : Builds pairs ↔ issues pairs = [] := by
  -- an issue is of a field or of an unknown key
  have hissues : issues pairs = [] ↔
      (∀ f : Field, f.cause? (given? pairs f) = none) ∧ unknownKeys pairs = [] := by
    simp [issues, List.flatMap_eq_nil_iff, mem_all]
  rw [hissues, Builds]
  simp only [ofPairs_eq_ok_iff]
  constructor
  · rintro ⟨j, h⟩
    refine ⟨fun f => ?_, h.known⟩
    cases f with
    | schema => exact refusal?_eq_none_iff.mpr ⟨_, h.schema⟩
    | width => exact refusal?_eq_none_iff.mpr ⟨_, h.width⟩
    | height => exact refusal?_eq_none_iff.mpr ⟨_, h.height⟩
    | background => exact refusal?_eq_none_iff.mpr ⟨_, h.background⟩
    | interval => exact refusal?_eq_none_iff.mpr ⟨_, h.interval⟩
    | output => exact refusal?_eq_none_iff.mpr ⟨_, h.output⟩
    | commands => exact refusal?_eq_none_iff.mpr ⟨_, h.commands⟩
    | summary => exact refusal?_eq_none_iff.mpr ⟨_, h.summary⟩
  · rintro ⟨hnone, hknown⟩
    obtain ⟨_, hschema⟩ := refusal?_eq_none_iff.mp (hnone .schema)
    obtain ⟨width, hwidth⟩ := refusal?_eq_none_iff.mp (hnone .width)
    obtain ⟨height, hheight⟩ := refusal?_eq_none_iff.mp (hnone .height)
    obtain ⟨background, hbackground⟩ := refusal?_eq_none_iff.mp (hnone .background)
    obtain ⟨interval, hinterval⟩ := refusal?_eq_none_iff.mp (hnone .interval)
    obtain ⟨output, houtput⟩ := refusal?_eq_none_iff.mp (hnone .output)
    obtain ⟨commands, hcommands⟩ := refusal?_eq_none_iff.mp (hnone .commands)
    obtain ⟨summary, hsummary⟩ := refusal?_eq_none_iff.mp (hnone .summary)
    exact ⟨⟨width, height, background, interval, output, commands, summary⟩, hnamed, hschema,
      hwidth, hheight, hbackground, hinterval, houtput, hcommands, hsummary, hknown⟩

/-- A key that is no text is the only fault told without issues. -/
theorem ofPairs_eq_unnamedKey_iff (pairs : List (Datum × Datum)) :
    ofPairs pairs = .error .unnamedKey ↔ pairs.all isNamed = false := by
  unfold ofPairs
  split
  · next hall =>
      refine iff_of_false ?_ (by simp [hall])
      dsimp only
      split <;> nofun
  · next hall => simpa using hall

/-- The issues are reported if there is no job. -/
theorem ofPairs_eq_error (hnamed : pairs.all isNamed = true) (h : ¬ Builds pairs) :
    ofPairs pairs = .error (.invalid none (issues pairs)) := by
  cases hpairs : ofPairs pairs with
  | ok j => exact absurd ⟨j, hpairs⟩ h
  | error fault =>
      unfold ofPairs at hpairs
      rw [if_pos hnamed] at hpairs
      dsimp only at hpairs
      split at hpairs
      · cases hpairs
      · rw [← hpairs]
        simp only [issueOf_eq, issues, Field.all, List.flatMap_cons, List.flatMap_nil,
          List.append_nil, List.append_assoc, Field.cause?]

/-! ## The keys of the fields -/

/-- All keys that are of a field. -/
def knownKeys : List String :=
  otherSchemaKey :: Field.all.map Field.key

/-- A field can be given under a key. -/
def Field.Takes (f : Field) (key : String) : Prop :=
  key = f.key ∨ f = .schema ∧ key = otherSchemaKey

theorem mem_knownKeys_iff : key ∈ knownKeys ↔ ∃ f : Field, f.Takes key := by
  simp only [knownKeys, List.mem_cons, List.mem_map, Field.Takes]
  constructor
  · rintro (rfl | ⟨f, -, rfl⟩)
    · exact ⟨.schema, .inr ⟨rfl, rfl⟩⟩
    · exact ⟨f, .inl rfl⟩
  · rintro ⟨f, rfl | ⟨-, rfl⟩⟩
    · exact .inr ⟨f, mem_all f, rfl⟩
    · exact .inl rfl

/-- No key is one of two fields. -/
theorem Field.Takes.unique {g : Field} (hf : f.Takes key) (hg : g.Takes key) : f = g := by
  have hkeys : ∀ f ∈ Field.all, ∀ g ∈ Field.all, f.key = g.key → f = g := by decide
  have hother : ∀ f ∈ Field.all, f.key ≠ otherSchemaKey := by decide
  rcases hf with rfl | ⟨rfl, rfl⟩ <;> rcases hg with heq | ⟨rfl, heq⟩
  · exact hkeys f (mem_all f) g (mem_all g) heq
  · exact absurd heq (hother f (mem_all f))
  · exact absurd heq.symm (hother g (mem_all g))
  · rfl

theorem takes_keyOf (pairs : List (Datum × Datum)) (f : Field) : f.Takes (keyOf pairs f) := by
  unfold keyOf
  split
  · next h =>
      simp only [Bool.and_eq_true, decide_eq_true_eq] at h
      exact .inr ⟨h.1.1, rfl⟩
  · exact .inl rfl

theorem keyOf_injective (pairs : List (Datum × Datum)) : Function.Injective (keyOf pairs) :=
  fun f g h => (takes_keyOf pairs f).unique (h ▸ takes_keyOf pairs g)

/-- The schema is not given twice. -/
def OneSchema (pairs : List (Datum × Datum)) : Prop :=
  ¬ (Field.schema.key ∈ Datum.names pairs ∧ otherSchemaKey ∈ Datum.names pairs)

/-- A field is looked up under the key that it is given under. -/
theorem keyOf_eq (hone : OneSchema pairs) (hmem : key ∈ Datum.names pairs) (htakes : f.Takes key) :
    keyOf pairs f = key := by
  unfold keyOf
  rcases htakes with rfl | ⟨rfl, rfl⟩
  · refine if_neg fun h => ?_
    simp only [Bool.and_eq_true, decide_eq_true_eq, Option.isNone_iff_eq_none,
      Datum.get?_eq_none_iff] at h
    exact h.1.2 hmem
  · have hnone : Datum.get? Field.schema.key pairs = none :=
      Datum.get?_eq_none_iff.mpr fun h => hone ⟨h, hmem⟩
    obtain ⟨d, hd⟩ := Datum.mem_names_iff.mp hmem
    rw [hnone, hd]
    rfl

/-! ## Unknown keys -/

theorem unknownKeys_eq (pairs : List (Datum × Datum)) :
    unknownKeys pairs =
      ((Datum.names pairs).filter (· ∉ Field.all.map (keyOf pairs))).map (⟨·, .unknownKey⟩) := by
  unfold unknownKeys
  generalize Field.all.map (keyOf pairs) = known
  induction pairs with
  | nil => rfl
  | cons entry pairs ih =>
      obtain ⟨k, v⟩ := entry
      cases hname : k.name? with
      | none =>
          rw [Datum.names_cons_of_name?_eq_none hname, ← ih]
          exact List.filterMap_cons_none (by cases k <;> first | rfl | cases hname)
      | some name =>
          obtain rfl := Datum.name?_eq_some_iff.mp hname
          rw [Datum.names_cons_text]
          by_cases hknown : name ∈ known
          · rw [List.filter_cons_of_neg (by simpa using hknown), ← ih]
            exact List.filterMap_cons_none (if_pos (List.contains_iff_mem.mpr hknown))
          · rw [List.filter_cons_of_pos (by simpa using hknown), List.map_cons, ← ih]
            exact List.filterMap_cons_some (if_neg (by simpa using hknown))

/-- The unknown keys are the names that no field can be given under. -/
theorem mem_unknownKeys_iff (hone : OneSchema pairs) :
    issue ∈ unknownKeys pairs ↔
      issue.key ∈ Datum.names pairs ∧ issue.key ∉ knownKeys ∧ issue.cause = .unknownKey := by
  obtain ⟨key, cause⟩ := issue
  -- a key that is given is the one under which its field is looked up
  have hknown (hmem : key ∈ Datum.names pairs) :
      key ∈ Field.all.map (keyOf pairs) ↔ key ∈ knownKeys := by
    rw [List.mem_map, mem_knownKeys_iff]
    constructor
    · rintro ⟨f, -, rfl⟩
      exact ⟨f, takes_keyOf pairs f⟩
    · rintro ⟨f, htakes⟩
      exact ⟨f, mem_all f, keyOf_eq hone hmem htakes⟩
  rw [unknownKeys_eq, List.mem_map]
  constructor
  · rintro ⟨name, hmem, heq⟩
    cases heq
    rw [List.mem_filter, decide_eq_true_eq] at hmem
    exact ⟨hmem.1, (not_congr (hknown hmem.1)).mp hmem.2, rfl⟩
  · rintro ⟨hmem, hnot, rfl⟩
    refine ⟨key, ?_, rfl⟩
    rw [List.mem_filter, decide_eq_true_eq]
    exact ⟨hmem, (not_congr (hknown hmem)).mpr hnot⟩

/-! ## All issues -/

theorem mem_issues_iff :
    issue ∈ issues pairs ↔
      (∃ f, keyOf pairs f = issue.key ∧ f.cause? (given? pairs f) = some issue.cause) ∨
        issue ∈ unknownKeys pairs := by
  obtain ⟨key, cause⟩ := issue
  simp [issues, mem_all, and_comm]

/-- Every key is reported at most once. -/
theorem nodup_keys_issues (hdistinct : (Datum.names pairs).Nodup) :
    ((issues pairs).map Issue.key).Nodup := by
  have hfields : (Field.all.map (keyOf pairs)).Nodup :=
    List.Nodup.map (keyOf_injective pairs) (by decide)
  -- every field has one issue at most, under its own key
  have hsublist : ((Field.all.flatMap fun f =>
      (f.cause? (given? pairs f)).toList.map (Issue.mk (keyOf pairs f))).map Issue.key).Sublist
        (Field.all.map (keyOf pairs)) := by
    generalize Field.all = fields
    induction fields with
    | nil => exact .refl _
    | cons f fields ih =>
        rw [List.flatMap_cons, List.map_append, List.map_cons]
        cases f.cause? (given? pairs f) with
        | none => exact ih.cons _
        | some cause => exact ih.cons_cons _
  have hunknown : (unknownKeys pairs).map Issue.key =
      (Datum.names pairs).filter (· ∉ Field.all.map (keyOf pairs)) := by
    rw [unknownKeys_eq, List.map_map]
    exact List.map_id _
  rw [issues, List.map_append, hunknown]
  refine (hfields.sublist hsublist).append (hdistinct.filter _) fun key hfield hother => ?_
  rw [List.mem_filter, decide_eq_true_eq] at hother
  exact hother.2 (hsublist.subset hfield)

/-- Nothing is wrong with a field that is not given, unless it has to be. -/
theorem cause?_none (f : Field) :
    f.cause? none = if f = .output ∨ f = .commands then some .missing else none := by
  cases f <;> rfl

end LoopPainter.Job
