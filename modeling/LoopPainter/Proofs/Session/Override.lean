import LoopPainter.Proofs.Job.Values
import LoopPainter.Proofs.Session.Refusals
import LoopPainter.Proofs.Yaml.File

/-!
# Arguments before the job file

The arguments are put into the mapping of the job file before anything of it is checked.  So a field
is read from its argument if it has one, and from the mapping otherwise (`given?_override`).  What
the mapping holds for a field that has an argument makes no difference (`jobOf_overrides`).

The values of the mapping are those that `Yaml.load` reads; of an escaped surrogate it keeps only
that there was one (`Yaml.charOfCode`).
-/

namespace LoopPainter.Session

variable {a a' : CommandLine.Arguments} {store store' : Store} {key : String}
  {pairs pairs' : List (Datum × Datum)}

/-! ## Values of the command line -/

/-- The value that the arguments give for a key of the job. -/
def explicit? (a : CommandLine.Arguments) (key : String) : Option Datum :=
  (jobArguments.find? fun argument => argument.2.key = key).bind fun argument => a.get? argument.1

/-- No other argument matters. -/
theorem explicit?_eq_of_get?_eq
    (h : ∀ argument ∈ jobArguments, a'.get? argument.1 = a.get? argument.1) (key : String) :
    explicit? a' key = explicit? a key := by
  unfold explicit?
  cases hfind : jobArguments.find? fun argument => argument.2.key = key with
  | none => rfl
  | some argument => exact h argument (List.mem_of_find?_eq_some hfind)

theorem nodup_keys_jobArguments : (jobArguments.map fun argument => argument.2.key).Nodup := by
  decide

/-- A value of the command line goes before that of the mapping. -/
theorem get?_override (a : CommandLine.Arguments) (pairs : List (Datum × Datum)) (key : String) :
    Datum.get? key (override a pairs) = (explicit? a key).or (Datum.get? key pairs) := by
  unfold override explicit?
  have hdistinct := nodup_keys_jobArguments
  generalize jobArguments = arguments at hdistinct
  induction arguments generalizing pairs with
  | nil => rfl
  | cons argument arguments ih =>
      rw [List.map_cons, List.nodup_cons] at hdistinct
      rw [List.foldl_cons, ih _ hdistinct.2]
      by_cases hkey : argument.2.key = key
      · -- no later argument has this key
        have hlater : (arguments.find? fun argument => argument.2.key = key) = none := by
          rw [List.find?_eq_none]
          intro later hlater heq
          rw [decide_eq_true_eq] at heq
          exact hdistinct.1 (List.mem_map.mpr ⟨later, hlater, heq.trans hkey.symm⟩)
        rw [hlater, List.find?_cons_of_pos (by simpa using hkey)]
        cases hvalue : a.get? argument.1 with
        | none => simp [hvalue]
        | some d => simp [hvalue, hkey]
      · rw [List.find?_cons_of_neg (by simpa using hkey)]
        dsimp only
        cases a.get? argument.1 with
        | none => rfl
        | some d => rw [Datum.get?_putPair, if_neg (Ne.symm hkey)]

/-- The schema cannot be given on the command line. -/
theorem explicit?_keyOf_schema (a : CommandLine.Arguments) (pairs : List (Datum × Datum)) :
    explicit? a (Job.keyOf pairs .schema) = none := by
  unfold Job.keyOf
  split <;> rfl

theorem keyOf_override (a : CommandLine.Arguments) (pairs : List (Datum × Datum)) (f : Job.Field) :
    Job.keyOf (override a pairs) f = Job.keyOf pairs f := by
  have hschema : explicit? a Job.Field.schema.key = none := rfl
  have hother : explicit? a Job.otherSchemaKey = none := rfl
  cases f with
  | schema => simp only [Job.keyOf, get?_override, hschema, hother, Option.none_or]
  | _ => rfl

/-- A field is read from its argument if it has one, and from the mapping otherwise. -/
theorem given?_override (a : CommandLine.Arguments) (pairs : List (Datum × Datum))
    (f : Job.Field) :
    Job.given? (override a pairs) f = (explicit? a f.key).or (Job.given? pairs f) := by
  rw [Job.given?, Job.given?, keyOf_override, get?_override]
  cases f with
  | schema =>
      rw [explicit?_keyOf_schema]
      rfl
  | _ => rfl

theorem nodup_names_override (a : CommandLine.Arguments) (h : (Datum.names pairs).Nodup) :
    (Datum.names (override a pairs)).Nodup := by
  unfold override
  generalize jobArguments = arguments
  induction arguments generalizing pairs with
  | nil => exact h
  | cons argument arguments ih =>
      rw [List.foldl_cons]
      refine ih ?_
      dsimp only
      cases a.get? argument.1 with
      | none => exact h
      | some d => exact Datum.nodup_names_putPair h _ _

/-- Without arguments for the job, nothing is put into the mapping. -/
theorem override_eq_self (hnone : ∀ argument ∈ jobArguments, a.get? argument.1 = none) :
    override a pairs = pairs := by
  unfold override
  generalize jobArguments = arguments at hnone
  induction arguments generalizing pairs with
  | nil => rfl
  | cons argument arguments ih =>
      rw [List.forall_mem_cons] at hnone
      rw [List.foldl_cons, ih hnone.2]
      dsimp only
      rw [hnone.1]

/-! ## The mapping below the arguments -/

/-- The mapping that the arguments go before: that of the job file, or an empty one if no file is
named. -/
def base (a : CommandLine.Arguments) (store : Store) :
    Except Job.FileFault (List (Datum × Datum)) :=
  match textOf? (a.get? .job) with
  | some file => Job.loadPairs store (Path.ofString file)
  | none => .ok []

theorem jobOf_of_base (h : base a store = .ok pairs) :
    jobOf a store = (Job.ofPairs (override a pairs)).mapError .job := by
  unfold base at h
  unfold jobOf
  cases hjob : textOf? (a.get? .job) with
  | none =>
      rw [hjob] at h
      cases h
      rfl
  | some file =>
      rw [hjob] at h
      dsimp only at h ⊢
      rw [h]
      rfl

theorem exists_load_of_loadFile {path : Path} {d : Datum}
    (h : Yaml.loadFile store path = .ok d) : ∃ text, Yaml.load text = .ok d := by
  obtain ⟨node, -, h⟩ := exists_of_bind h
  cases node with
  | none => cases h
  | some node =>
      obtain ⟨content, -, h⟩ := exists_of_bind h
      obtain ⟨text, -, h⟩ := exists_of_bind h
      exact ⟨text, eq_ok_of_mapError h⟩

theorem nodup_names_of_loadPairs {path : Path} (h : Job.loadPairs store path = .ok pairs) :
    (Datum.names pairs).Nodup := by
  rcases loadPairs_cases store path _ with ⟨_, hpairs⟩ | ⟨pairs', hload, hpairs⟩ |
    ⟨_, _, _, _, _, hpairs⟩ | ⟨_, _, _, hpairs⟩ <;> rw [h] at hpairs
  · cases hpairs
  · cases hpairs
    obtain ⟨text, htext⟩ := exists_load_of_loadFile hload
    exact Yaml.nodup_names_of_load htext
  · cases hpairs
  · cases hpairs

/-- The names of the mapping are different. -/
theorem nodup_names_of_base (h : base a store = .ok pairs) : (Datum.names pairs).Nodup := by
  unfold base at h
  split at h
  · exact nodup_names_of_loadPairs h
  · cases h
    exact List.nodup_nil

/-- A fault of a job whose file is named in it. -/
def inFile (file : String) : Job.LoadFault → Job.LoadFault
  | .job (.invalid _ issues) => .job (.invalid (some file) issues)
  | fault => fault

/-- Without arguments for the job, it is the job of the file, and the failures are the same. -/
theorem load_eq_of_no_arguments (hnone : ∀ argument ∈ jobArguments, a.get? argument.1 = none)
    {file : String} (hjob : textOf? (a.get? .job) = some file) :
    Job.load store (Path.ofString file) =
      (jobOf a store).mapError (inFile (Path.ofString file).toString) := by
  unfold Job.load
  cases hpairs : Job.loadPairs store (Path.ofString file) with
  | error f =>
      have hfault : jobOf a store = .error (.file f) := by
        rw [jobOf, hjob]
        dsimp only
        rw [hpairs]
        rfl
      rw [hfault]
      rfl
  -- the mapping is the same, and only a list of issues names the file
  | ok pairs =>
      have hbase : base a store = .ok pairs := by
        rw [base, hjob]
        exact hpairs
      rw [jobOf_of_base hbase, override_eq_self hnone]
      simp only [Except.mapError, Bind.bind, Except.bind]
      cases Job.ofPairs pairs with
      | ok j => rfl
      | error fault => cases fault <;> rfl

/-- The arguments go before the mapping of the job file, which is not checked until then.  So what
the mapping holds where there is an argument makes no difference: mappings that agree elsewhere
give the same job or fail with the same issues.  Without arguments for the job, it is that of the
file, and what is given neither way has its default. -/
theorem jobOf_overrides (a a' : CommandLine.Arguments) (store store' : Store) :
    (∀ pairs, base a store = .ok pairs →
      jobOf a store = (Job.ofPairs (override a pairs)).mapError .job ∧
      ∀ f, Job.given? (override a pairs) f = (explicit? a f.key).or (Job.given? pairs f)) ∧
    (∀ pairs pairs', base a store = .ok pairs → base a' store' = .ok pairs' →
      (∀ argument ∈ jobArguments, a'.get? argument.1 = a.get? argument.1) →
      (∀ key, explicit? a key = none → Datum.get? key pairs' = Datum.get? key pairs) →
      pairs'.all Job.isNamed = pairs.all Job.isNamed →
      Job.SameResult (jobOf a store) (jobOf a' store')) ∧
    ((∀ argument ∈ jobArguments, a.get? argument.1 = none) → ∀ file,
      textOf? (a.get? .job) = some file →
      Job.load store (Path.ofString file) =
        (jobOf a store).mapError (inFile (Path.ofString file).toString)) ∧
    ∀ pairs j, base a store = .ok pairs → jobOf a store = .ok j → ∀ f,
      explicit? a f.key = none → Job.given? pairs f = none → f.fallback? = some (j.value f) := by
  refine ⟨fun pairs hbase => ⟨jobOf_of_base hbase, given?_override a pairs⟩,
    fun pairs pairs' hbase hbase' harguments hagree hnamed => ?_,
    fun hnone file hjob => load_eq_of_no_arguments hnone hjob,
    fun pairs j hbase hj f hargument hgiven => ?_⟩
  -- where there is an argument it hides what the files say; elsewhere they agree
  · have hvalues : Job.SameValues (override a pairs) (override a' pairs') := by
      refine ⟨fun key => ?_, ?_⟩
      · rw [get?_override, get?_override, explicit?_eq_of_get?_eq harguments]
        cases hargument : explicit? a key with
        | none => exact congrArg _ (hagree key hargument)
        | some d => rfl
      · rw [all_isNamed_override, all_isNamed_override, hnamed]
    rw [jobOf_of_base hbase, jobOf_of_base hbase']
    exact hvalues.sameResult (nodup_names_override a (nodup_names_of_base hbase))
      (nodup_names_override a' (nodup_names_of_base hbase'))
  -- a valid job has the default of whatever is given neither way
  · have haccepts : Job.Accepts (override a pairs) j := by
      rw [jobOf_of_base hbase] at hj
      exact Job.ofPairs_eq_ok_iff.mp (eq_ok_of_mapError hj)
    refine haccepts.fallback?_eq ?_
    rw [given?_override, hargument, hgiven]
    rfl

/-- The written form of a mapping, as a file. -/
def written (pairs : List (Datum × Datum)) : Content :=
  .bytes (String.ofList (Yaml.dump (.map pairs))).toUTF8

theorem loadPairs_written {path : Path} (hcontent : store.content path = .ok (written pairs))
    (h : List.Forall₂ (Yaml.ReplaysPair 0) pairs pairs') (hne : pairs ≠ [])
    (hdistinct : (pairs'.map (·.1)).Nodup) : Job.loadPairs store path = .ok pairs' := by
  obtain ⟨hlegible, hload⟩ := Yaml.load_dump h hne hdistinct
  have hstat := Store.stat_eq_ok_some.mpr (Store.content_eq_ok.mp hcontent)
  have hfile := Yaml.loadFile_of_content hcontent (by rwa [String.toList_ofList])
  rw [Job.loadPairs, hstat, hfile, hload]
  rfl

/-- A field with a small number is read from a file as it was written. -/
theorem replaysPair_int (f : Job.Field) {i : ℤ} (hsmall : i.natAbs < 10 ^ 2) :
    Yaml.ReplaysPair 0 (.text f.key, .int i) (.text f.key, .int i) :=
  ⟨f.key, Job.label_key f, rfl, rfl, (Yaml.scribes_int (by decide)
    (Text.isTooLong_eq_false_of_lt (by decide) hsmall)).replays⟩

/-- Two files that agree on the height alone.  Each holds a value that no job can have, one a width
and one an output, and both fields are given on the command line. -/
theorem jobOf_overrides_masked :
    let store : Store := ⟨[
      (⟨.above 0, ["j"]⟩, .file (written [(.text "width", .int 0), (.text "height", .int 7)])),
      (⟨.above 0, ["k"]⟩, .file (written [(.text "height", .int 7), (.text "output", .int 3)]))]⟩
    let arguments (file : String) : CommandLine.Arguments :=
      ⟨[(.command, .text "F"), (.output, .text "c.png"), (.width, .int 5), (.job, .text file)]⟩
    (∃ j, jobOf (arguments "j") store = .ok j ∧
      Job.SameResult (.ok j) (jobOf (arguments "k") store) ∧
      j.value .width = .int 5 ∧ some (j.value .interval) = Job.Field.interval.fallback?) ∧
    Job.load store ⟨.relative, ["j"]⟩ =
      (jobOf ⟨[(.job, .text "j")]⟩ store).mapError (inFile "j") := by
  intro store arguments
  have hj : Job.loadPairs store ⟨.relative, ["j"]⟩ =
      .ok [(.text "width", .int 0), (.text "height", .int 7)] :=
    loadPairs_written rfl (.cons (replaysPair_int .width (by decide))
      (.cons (replaysPair_int .height (by decide)) .nil)) (by simp) (by simp)
  have hk : Job.loadPairs store ⟨.relative, ["k"]⟩ =
      .ok [(.text "height", .int 7), (.text "output", .int 3)] :=
    loadPairs_written rfl (.cons (replaysPair_int .height (by decide))
      (.cons (replaysPair_int .output (by decide)) .nil)) (by simp) (by simp)
  obtain ⟨hmerged, hsame, -, hdefault⟩ :=
    jobOf_overrides (arguments "j") (arguments "k") store store
  constructor
  · have hequal : ∀ argument ∈ jobArguments,
        (arguments "k").get? argument.1 = (arguments "j").get? argument.1 := by
      simp only [jobArguments, List.forall_mem_cons]
      exact ⟨rfl, rfl, rfl, rfl, rfl, rfl, rfl, nofun⟩
    -- width and output are the keys on which the files differ, and both are given
    have hagree : ∀ key, explicit? (arguments "j") key = none →
        Datum.get? key [(.text "height", .int 7), (.text "output", .int 3)] =
          Datum.get? key [(.text "width", .int 0), (.text "height", .int 7)] := by
      intro key hkey
      have hwidth : key ≠ "width" := by
        rintro rfl
        cases hkey
      have houtput : key ≠ "output" := by
        rintro rfl
        cases hkey
      simp [Datum.get?, Datum.sameKey_text, hwidth.symm, houtput.symm]
    have hresult := hsame _ _ hj hk hequal hagree rfl
    have hmade := (hmerged _ hj).1
    obtain ⟨j, hjob⟩ : ∃ j, jobOf (arguments "j") store = .ok j := ⟨_, hmade.trans rfl⟩
    have hinterval := hdefault _ _ hj hjob .interval rfl rfl
    rw [hjob] at hresult hmade
    cases hmade
    exact ⟨_, hjob, hresult, rfl, hinterval.symm⟩
  · refine (jobOf_overrides ⟨[(.job, .text "j")]⟩ {} store store).2.2.1 ?_ "j" rfl
    simp only [jobArguments, List.forall_mem_cons]
    exact ⟨rfl, rfl, rfl, rfl, rfl, rfl, rfl, nofun⟩

end LoopPainter.Session
