import LoopPainter.Proofs.Job.Checks

/-!
# Values by themselves

A value can be tried in a mapping that holds nothing else but what has to be given (`alone`).  It is
refused there for the same cause as among any other values (`issues_alone`), so the issues of a
mapping are told by its unknown keys, by what is missing, and by trying every value on its own.
-/

namespace LoopPainter.Job

variable {pairs : List (Datum × Datum)} {key : String} {d output commands : Datum} {f : Field}
  {cause : Cause}

/-! ## A value by itself -/

/-- A mapping that holds what has to be given. -/
def basic (output commands : Datum) : List (Datum × Datum) :=
  [(.text Field.output.key, output), (.text Field.commands.key, commands)]

/-- The same with a value put under a key. -/
def alone (output commands : Datum) (key : String) (d : Datum) : List (Datum × Datum) :=
  Datum.putPair (.text key) d (basic output commands)

theorem named_alone (output commands : Datum) (key : String) (d : Datum) :
    (alone output commands key d).all isNamed = true :=
  all_isNamed_putPair _ _ _

theorem get?_alone (name : String) :
    Datum.get? name (alone output commands key d) =
      if name = key then some d else Datum.get? name (basic output commands) :=
  Datum.get?_putPair _ _ _ _

theorem mem_names_alone {name : String} :
    name ∈ Datum.names (alone output commands key d) ↔
      name = key ∨ name = Field.output.key ∨ name = Field.commands.key := by
  rw [alone, Datum.names_putPair_text]
  have hnames : Datum.names (basic output commands) = [Field.output.key, Field.commands.key] := rfl
  rw [hnames]
  split
  · next hmem =>
      simp only [List.mem_cons, List.not_mem_nil, or_false] at hmem ⊢
      constructor
      · exact .inr
      · rintro (rfl | h)
        · exact hmem
        · exact h
  · simp only [List.mem_append, List.mem_cons, List.not_mem_nil, or_false]
    exact or_comm

theorem oneSchema_alone : OneSchema (alone output commands key d) := by
  rintro ⟨hschema, hother⟩
  rw [mem_names_alone] at hschema hother
  have hkeys : ∀ name ∈ [Field.schema.key, otherSchemaKey],
      ¬ (name = Field.output.key ∨ name = Field.commands.key) := by decide
  have heq := (hschema.resolve_right (hkeys _ (by decide))).trans
    (hother.resolve_right (hkeys _ (by decide))).symm
  exact absurd heq (by decide)

theorem keyOf_alone (htakes : f.Takes key) : keyOf (alone output commands key d) f = key :=
  keyOf_eq oneSchema_alone (mem_names_alone.mpr (.inl rfl)) htakes

theorem given?_alone (htakes : f.Takes key) :
    given? (alone output commands key d) f = some d := by
  rw [given?, keyOf_alone htakes, get?_alone, if_pos rfl]

/-- The other fields are as if nothing had been put. -/
theorem given?_alone_of_ne {g : Field} (htakes : f.Takes key) (hne : g ≠ f) :
    given? (alone output commands key d) g = given? (basic output commands) g := by
  have hother := takes_keyOf (alone output commands key d) g
  have hkey : keyOf (alone output commands key d) g ≠ key := by
    intro heq
    rw [heq] at hother
    exact hne (hother.unique htakes)
  rw [given?, get?_alone, if_neg hkey]
  rcases hother with heq | ⟨rfl, heq⟩
  · rw [heq]
    cases g <;> rfl
  · rw [heq]
    rfl

theorem unknownKeys_alone (htakes : f.Takes key) :
    unknownKeys (alone output commands key d) = [] := by
  rw [List.eq_nil_iff_forall_not_mem]
  intro issue hmem
  obtain ⟨hname, hnot, -⟩ := (mem_unknownKeys_iff oneSchema_alone).mp hmem
  rw [mem_names_alone] at hname
  rcases hname with heq | heq | heq
  · exact hnot (mem_knownKeys_iff.mpr ⟨f, heq ▸ htakes⟩)
  · exact hnot (mem_knownKeys_iff.mpr ⟨.output, .inl heq⟩)
  · exact hnot (mem_knownKeys_iff.mpr ⟨.commands, .inl heq⟩)

section Basic

variable (hbasic : Builds (basic output commands))

include hbasic

/-- A value by itself has the issue that its field has with it, and no other. -/
theorem issues_alone (htakes : f.Takes key) :
    issues (alone output commands key d) = (f.cause? (some d)).toList.map (Issue.mk key) := by
  have hnone := (builds_iff rfl).mp hbasic
  -- the other fields are as in the basic mapping, which has no issues
  have hothers (g : Field) (hne : g ≠ f) :
      g.cause? (given? (alone output commands key d) g) = none := by
    rw [given?_alone_of_ne htakes hne]
    cases hcause : g.cause? (given? (basic output commands) g) with
    | none => rfl
    | some cause =>
        have hmem : ⟨keyOf (basic output commands) g, cause⟩ ∈ issues (basic output commands) :=
          mem_issues_iff.mpr (.inl ⟨g, rfl, hcause⟩)
        rw [hnone] at hmem
        cases hmem
  have hfound : ∀ g : Field, (g.cause? (given? (alone output commands key d) g)).toList.map
      (Issue.mk (keyOf (alone output commands key d) g)) =
        if g = f then (f.cause? (some d)).toList.map (Issue.mk key) else [] := by
    intro g
    split
    · next heq => rw [heq, given?_alone htakes, keyOf_alone htakes]
    · next hne => rw [hothers g hne]; rfl
  rw [issues, unknownKeys_alone htakes, List.append_nil]
  simp only [hfound]
  generalize (f.cause? (some d)).toList.map (Issue.mk key) = found
  cases f <;> simp [Field.all]

theorem builds_alone_iff (htakes : f.Takes key) :
    Builds (alone output commands key d) ↔ f.cause? (some d) = none := by
  rw [builds_iff (named_alone _ _ _ _), issues_alone hbasic htakes]
  simp

/-- A value is refused by itself for the cause that its field has. -/
theorem ofPairs_alone_eq_error_iff (htakes : f.Takes key) :
    ofPairs (alone output commands key d) = .error (.invalid none [⟨key, cause⟩]) ↔
      f.cause? (some d) = some cause := by
  cases hcause : f.cause? (some d) with
  | none =>
      obtain ⟨j, hj⟩ := (builds_alone_iff hbasic htakes).mpr hcause
      simp [hj]
  | some cause' =>
      have hnot : ¬ Builds (alone output commands key d) := by
        simp [builds_alone_iff hbasic htakes, hcause]
      rw [ofPairs_eq_error (named_alone _ _ _ _) hnot, issues_alone hbasic htakes, hcause]
      simp [eq_comm]

/-- A value that makes no job by itself is refused there, for one cause. -/
theorem exists_ofPairs_alone (hknown : key ∈ knownKeys)
    (hnot : ¬ Builds (alone output commands key d)) : ∃ cause,
      ofPairs (alone output commands key d) = .error (.invalid none [⟨key, cause⟩]) := by
  obtain ⟨f, htakes⟩ := mem_knownKeys_iff.mp hknown
  rw [builds_alone_iff hbasic htakes, ← ne_eq, Option.ne_none_iff_exists'] at hnot
  obtain ⟨cause, hcause⟩ := hnot
  exact ⟨cause, (ofPairs_alone_eq_error_iff hbasic htakes).mpr hcause⟩

end Basic

/-! ## Field by field -/

/-- A mapping that describes a job: its keys are different texts, and the schema is not given
twice. -/
structure Proper (pairs : List (Datum × Datum)) : Prop where
  named : pairs.all isNamed = true
  distinct : (Datum.names pairs).Nodup
  oneSchema : OneSchema pairs

/-- The issues are the unknown keys, the missing fields, and the values that a field refuses. -/
theorem Proper.mem_issues_iff (h : Proper pairs) :
    ⟨key, cause⟩ ∈ issues pairs ↔
      (key ∈ Datum.names pairs ∧ key ∉ knownKeys ∧ cause = .unknownKey) ∨
      (key ∈ [Field.output.key, Field.commands.key] ∧ key ∉ Datum.names pairs ∧
        cause = .missing) ∨
      ∃ (f : Field) (d : Datum), f.Takes key ∧ Datum.get? key pairs = some d ∧
        f.cause? (some d) = some cause := by
  rw [Job.mem_issues_iff, mem_unknownKeys_iff h.oneSchema]
  dsimp only
  constructor
  · rintro (⟨f, rfl, hcause⟩ | hunknown)
    · right
      rw [given?] at hcause
      cases hget : Datum.get? (keyOf pairs f) pairs with
      | some d =>
          rw [hget] at hcause
          exact .inr ⟨f, d, takes_keyOf pairs f, rfl, hcause⟩
      | none =>
          rw [hget, cause?_none] at hcause
          split at hcause
          · next hf =>
              -- only the schema has a second key, and it may be left out
              have hkey : keyOf pairs f = f.key := by
                rcases takes_keyOf pairs f with heq | ⟨rfl, -⟩
                · exact heq
                · exact absurd hf (by decide)
              refine .inl ⟨?_, Datum.get?_eq_none_iff.mp hget, (Option.some.inj hcause).symm⟩
              rw [hkey]
              rcases hf with rfl | rfl <;> decide
          · cases hcause
    · exact .inl hunknown
  · rintro (hunknown | ⟨hkey, hmissing, rfl⟩ | ⟨f, d, htakes, hget, hcause⟩)
    · exact .inr hunknown
    · left
      have hnone := Datum.get?_eq_none_iff.mpr hmissing
      rw [List.mem_pair] at hkey
      rcases hkey with rfl | rfl
      · exact ⟨.output, rfl, congrArg (Field.cause? .output) hnone⟩
      · exact ⟨.commands, rfl, congrArg (Field.cause? .commands) hnone⟩
    · left
      -- a field is looked up under the key that is given
      have hkey := keyOf_eq h.oneSchema (Datum.mem_names_iff.mpr ⟨d, hget⟩) htakes
      exact ⟨f, hkey, by rw [given?, hkey, hget, hcause]⟩

theorem Proper.mem_issues_iff_alone (h : Proper pairs) (hbasic : Builds (basic output commands)) :
    ⟨key, cause⟩ ∈ issues pairs ↔
      (key ∈ Datum.names pairs ∧ key ∉ knownKeys ∧ cause = .unknownKey) ∨
      (key ∈ [Field.output.key, Field.commands.key] ∧ key ∉ Datum.names pairs ∧
        cause = .missing) ∨
      (key ∈ knownKeys ∧ ∃ d, Datum.get? key pairs = some d ∧
        ofPairs (alone output commands key d) = .error (.invalid none [⟨key, cause⟩])) := by
  rw [h.mem_issues_iff]
  refine or_congr_right (or_congr_right ?_)
  constructor
  · rintro ⟨f, d, htakes, hget, hcause⟩
    exact ⟨mem_knownKeys_iff.mpr ⟨f, htakes⟩, d, hget,
      (ofPairs_alone_eq_error_iff hbasic htakes).mpr hcause⟩
  · rintro ⟨hknown, d, hget, herror⟩
    obtain ⟨f, htakes⟩ := mem_knownKeys_iff.mp hknown
    exact ⟨f, d, htakes, hget, (ofPairs_alone_eq_error_iff hbasic htakes).mp herror⟩

end LoopPainter.Job
