import LoopPainter.Job.File
import LoopPainter.Proofs.Job.Checks

/-!
# What a job depends on

A job depends on nothing but the values of its mapping: the order of the keys does not matter, nor
what the keys are that are no texts (`SameValues.sameResult`).  A field that is not given has its
default (`Accepts.fallback?_eq`).
-/

namespace LoopPainter.Job

variable {pairs pairs' : List (Datum × Datum)} {j : Job} {f : Field}

/-! ## Mappings with the same values -/

/-- Two mappings have the same value under every text, and either both have a key that is no text or
none has. -/
structure SameValues (pairs pairs' : List (Datum × Datum)) : Prop where
  get?_eq : ∀ key, Datum.get? key pairs' = Datum.get? key pairs
  named_eq : pairs'.all isNamed = pairs.all isNamed

/-- Two results are the same job or the same failure; the issues may come in any order. -/
inductive SameResult : Except LoadFault Job → Except LoadFault Job → Prop
  | same (r : Except LoadFault Job) : SameResult r r
  | issues {file : Option String} {issues issues' : List Issue} (h : issues'.Perm issues) :
      SameResult (.error (.job (.invalid file issues))) (.error (.job (.invalid file issues')))

theorem SameValues.keyOf_eq (h : SameValues pairs pairs') (f : Field) :
    keyOf pairs' f = keyOf pairs f := by
  simp only [keyOf, h.get?_eq]

theorem SameValues.given?_eq (h : SameValues pairs pairs') (f : Field) :
    given? pairs' f = given? pairs f := by
  rw [given?, given?, h.keyOf_eq, h.get?_eq]

/-- The same names are unknown, perhaps in another order. -/
theorem SameValues.unknownKeys_perm (h : SameValues pairs pairs')
    (hdistinct : (Datum.names pairs).Nodup) (hdistinct' : (Datum.names pairs').Nodup) :
    (unknownKeys pairs').Perm (unknownKeys pairs) := by
  have hnames : (Datum.names pairs').Perm (Datum.names pairs) := by
    rw [List.perm_ext_iff_of_nodup hdistinct' hdistinct]
    intro key
    simp only [Datum.mem_names_iff, h.get?_eq]
  rw [unknownKeys_eq, unknownKeys_eq, List.map_congr_left fun f _ => h.keyOf_eq f]
  exact (hnames.filter _).map _

theorem SameValues.accepts (h : SameValues pairs pairs') (hdistinct : (Datum.names pairs).Nodup)
    (hdistinct' : (Datum.names pairs').Nodup) (haccepts : Accepts pairs j) : Accepts pairs' j := by
  have hunknown := h.unknownKeys_perm hdistinct hdistinct'
  rw [haccepts.known] at hunknown
  refine ⟨h.named_eq.trans haccepts.named, ?_, ?_, ?_, ?_, ?_, ?_, ?_, ?_, hunknown.eq_nil⟩
  all_goals rw [h.given?_eq]
  · exact haccepts.schema
  · exact haccepts.width
  · exact haccepts.height
  · exact haccepts.background
  · exact haccepts.interval
  · exact haccepts.output
  · exact haccepts.commands
  · exact haccepts.summary

/-- What is made of a mapping depends on nothing but its values. -/
theorem SameValues.sameResult (h : SameValues pairs pairs') (hdistinct : (Datum.names pairs).Nodup)
    (hdistinct' : (Datum.names pairs').Nodup) :
    SameResult ((ofPairs pairs).mapError .job) ((ofPairs pairs').mapError .job) := by
  cases hnamed : pairs.all isNamed with
  | false =>
      rw [(ofPairs_eq_unnamedKey_iff pairs).mpr hnamed,
        (ofPairs_eq_unnamedKey_iff pairs').mpr (h.named_eq.trans hnamed)]
      exact .same _
  | true =>
      have hnamed' := h.named_eq.trans hnamed
      by_cases hbuilds : Builds pairs
      · obtain ⟨j, hj⟩ := hbuilds
        have haccepts := h.accepts hdistinct hdistinct' (ofPairs_eq_ok_iff.mp hj)
        rw [hj, ofPairs_eq_ok_iff.mpr haccepts]
        exact .same _
      · have hnot : ¬ Builds pairs' := by
          rintro ⟨j, hj⟩
          have hback : SameValues pairs' pairs :=
            ⟨fun key => (h.get?_eq key).symm, h.named_eq.symm⟩
          exact hbuilds ⟨j, ofPairs_eq_ok_iff.mpr
            (hback.accepts hdistinct' hdistinct (ofPairs_eq_ok_iff.mp hj))⟩
        rw [ofPairs_eq_error hnamed hbuilds, ofPairs_eq_error hnamed' hnot]
        -- the issues of the fields are equal, and the unknown keys may come in another order
        refine .issues ?_
        simp only [issues, h.keyOf_eq, h.given?_eq]
        exact (h.unknownKeys_perm hdistinct hdistinct').append_left _

/-! ## Defaults -/

/-- The value of a field that is not given; the output and the program have none. -/
def Field.fallback? : Field → Option Datum
  | .schema => some (.text "render_job.v1")
  | .width | .height => some (.int 256)
  | .background => some (.text "Black")
  | .interval => some (.int 100)
  | .output | .commands => none
  | .summary => some .null

/-- A field that is not given has its default in the job. -/
theorem Accepts.fallback?_eq (h : Accepts pairs j) (hnone : given? pairs f = none) :
    f.fallback? = some (j.value f) := by
  obtain ⟨-, -, hwidth, hheight, hbackground, hinterval, houtput, hcommands, hsummary, -⟩ := h
  cases f with
  | schema => rfl
  | width =>
      rw [hnone] at hwidth
      rw [value, ← Except.ok.inj hwidth]
      rfl
  | height =>
      rw [hnone] at hheight
      rw [value, ← Except.ok.inj hheight]
      rfl
  | background =>
      rw [hnone] at hbackground
      rw [value, ← Except.ok.inj hbackground]
      rfl
  | interval =>
      rw [hnone] at hinterval
      rw [value, ← Except.ok.inj hinterval]
      rfl
  | output =>
      rw [hnone] at houtput
      cases houtput
  | commands =>
      rw [hnone] at hcommands
      cases hcommands
  | summary =>
      rw [hnone] at hsummary
      rw [value, ← Except.ok.inj hsummary]
      rfl

end LoopPainter.Job
