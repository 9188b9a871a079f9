import LoopPainter.Proofs.Job.Checks
import LoopPainter.Proofs.Journal.Confined
import LoopPainter.Proofs.Session.Escapes

/-!
# Jobs that are invalid

A session that finds no valid job ends with the code of an invalid job, provided that the job file
is `Legible`: it is missing, or it is a YAML text that there is room for and whose mapping has no
key but text.  Where the file cannot be read as such, the failure breaks out of the session.  In
either case the session changes no file but that of the log (`OnlyLogs`).

A text of the job file in which a surrogate is escaped is read with replacement characters in the
places of surrogates (`Yaml.charOfCode`).
-/

namespace LoopPainter.Session

open Journal Store

variable {words : List String} {a : CommandLine.Arguments} {s s₁ : Session} {store : Store}
  {path : Path} {fault : Job.LoadFault} {fits : String → Bool}

/-! ## Job files -/

/-- There is no file at the path, or there is a YAML text with room for it and, if it describes a
mapping, all keys of that are text. -/
def Legible (store : Store) (path : Path) (fits : String → Bool) : Prop :=
  store.stat path = .ok none ∨
    ∃ d, Yaml.loadFile store path fits = .ok d ∧
      ∀ pairs, d = .map pairs → pairs.all Job.isNamed = true

/-- Arguments put in keys that are text. -/
theorem all_isNamed_override (a : CommandLine.Arguments) (pairs : List (Datum × Datum)) :
    (override a pairs).all Job.isNamed = pairs.all Job.isNamed := by
  unfold override
  generalize jobArguments = arguments
  induction arguments generalizing pairs with
  | nil => rfl
  | cons argument arguments ih =>
      rw [List.foldl_cons, ih]
      dsimp only
      cases a.get? argument.1 with
      | none => rfl
      | some d => exact Job.all_isNamed_putPair _ _ _

/-- A complaint is made of every fault but one of the file's text or of a key. -/
theorem exists_complaint_iff (fault : Job.LoadFault) :
    (∃ message, complaint fault = .ok message) ↔
      (∀ f, fault ≠ .file (.yaml f)) ∧ fault ≠ .job .unnamedKey := by
  cases fault with
  | file f => cases f <;> simp [complaint]
  | job f => cases f <;> simp [complaint]

theorem stat_ne_none_of_loadFile {d : Datum} (h : Yaml.loadFile store path fits = .ok d) :
    store.stat path ≠ .ok none := by
  intro hstat
  simp [Yaml.loadFile, hstat, Except.mapError, bind, Except.bind] at h

/-- A job file that is missing or a YAML text has a mapping, or its fault is one of the job; any
other file has a fault of its text. -/
theorem loadPairs_cases (store : Store) (path : Path) (fits : String → Bool) :
    (store.stat path = .ok none ∧ Job.loadPairs store path fits = .error (.missing path.toString)) ∨
    (∃ pairs, Yaml.loadFile store path fits = .ok (.map pairs) ∧
      Job.loadPairs store path fits = .ok pairs) ∨
    (∃ d, Yaml.loadFile store path fits = .ok d ∧ (∀ pairs, d ≠ .map pairs) ∧
      ∃ f, (∀ f', f ≠ .yaml f') ∧ Job.loadPairs store path fits = .error f) ∨
    (store.stat path ≠ .ok none ∧ (∀ d, Yaml.loadFile store path fits ≠ .ok d) ∧
      ∃ f, Job.loadPairs store path fits = .error (.yaml f)) := by
  unfold Job.loadPairs
  cases hstat : store.stat path with
  | error f =>
      refine .inr (.inr (.inr ⟨nofun, ?_, _, rfl⟩))
      simp [Yaml.loadFile, hstat, Except.mapError, bind, Except.bind]
  | ok n =>
      cases n with
      | none => exact .inl ⟨rfl, rfl⟩
      | some n =>
          -- the file is there: what its text means decides
          right
          cases hload : Yaml.loadFile store path fits with
          | error f =>
              refine .inr (.inr ⟨by simp, fun d hd => ?_, f, rfl⟩)
              cases hd
          | ok d =>
              cases d with
              | map pairs => exact .inl ⟨pairs, rfl, rfl⟩
              | _ => exact .inr (.inl ⟨_, rfl, by simp, _, by simp, rfl⟩)

/-- The fault of a mapping is complained of exactly if its keys are text. -/
theorem exists_complaint_iff_named {pairs : List (Datum × Datum)}
    (h : (Job.ofPairs (override a pairs)).mapError .job = .error fault) :
    (∃ message, complaint fault = .ok message) ↔ pairs.all Job.isNamed = true := by
  cases hpairs : Job.ofPairs (override a pairs) with
  | ok j =>
      rw [hpairs] at h
      cases h
  | error f =>
      rw [hpairs] at h
      cases h
      have hunnamed := Job.ofPairs_eq_unnamedKey_iff (override a pairs)
      rw [hpairs, all_isNamed_override, Except.error.injEq] at hunnamed
      rw [exists_complaint_iff, ← Bool.not_eq_false, ← hunnamed]
      simp

/-- The fault of a job is complained of exactly if its file is legible. -/
theorem exists_complaint_iff_legible (h : jobOf a store fits = .error fault) :
    (∃ message, complaint fault = .ok message) ↔
      ∀ file, textOf? (a.get? .job) = some file → Legible store (Path.ofString file) fits := by
  unfold jobOf at h
  cases hjob : textOf? (a.get? .job) with
  | none =>
      rw [hjob] at h
      exact iff_of_true ((exists_complaint_iff_named h).mpr rfl) nofun
  | some file =>
      rw [hjob] at h
      dsimp only at h
      simp only [Option.some.injEq, forall_eq']
      -- one case for a missing file, a mapping, another value and a text without a value
      rcases loadPairs_cases store (Path.ofString file) fits with
        ⟨hstat, hpairs⟩ | ⟨pairs, hload, hpairs⟩ | ⟨d, hload, hd, f, hf, hpairs⟩ |
          ⟨hstat, hload, f, hpairs⟩ <;>
        rw [hpairs] at h
      · cases h
        exact iff_of_true ⟨_, rfl⟩ (.inl hstat)
      · rw [exists_complaint_iff_named h]
        constructor
        · exact fun hall => .inr ⟨_, hload, fun pairs' heq => by cases heq; exact hall⟩
        · rintro (hstat | ⟨d, hload', hall⟩)
          · exact absurd hstat (stat_ne_none_of_loadFile hload)
          · cases hload.symm.trans hload'
            exact hall pairs rfl
      · cases h
        refine iff_of_true ?_ (.inr ⟨d, hload, fun pairs heq => absurd heq (hd pairs)⟩)
        exact (exists_complaint_iff _).mpr ⟨fun f' heq => hf f' (by cases heq; rfl), nofun⟩
      · cases h
        refine iff_of_false nofun ?_
        rintro (hstat' | ⟨d, hload', -⟩)
        · exact hstat hstat'
        · exact hload d hload'

/-! ## The log -/

/-- The place of the log file is the only one at which a file may have changed, and the only new
directories are on the way to it. -/
def OnlyLogs (a : CommandLine.Arguments) (before after : Store) : Prop :=
  ∀ q, (∀ file, textOf? (a.get? .logFile) = some file → q ≠ logPlace file) →
    after.find? q = before.find? q ∨
      ∃ file, textOf? (a.get? .logFile) = some file ∧
        Made (places (Path.ofString file).parent) before after q

/-- Setting the session up changes only what belongs to the log, and so does a message after that.
-/
theorem onlyLogs_setUp (hforeign : ∀ h ∈ s.journal.withoutInstalled.handlers, h.sink = .console)
    (hsetup : s.setUp a = (.ok (), s₁)) :
    OnlyLogs a s.store s₁.store ∧
      ∀ level source message, OnlyLogs a s.store (s₁.log level source message).store := by
  unfold setUp at hsetup
  rcases hjournal : Journal.setUp (journalSetup a) s.terminal s.journal s.store with
    ⟨_ | _, journal, store⟩ <;> rw [hjournal] at hsetup
  · cases hsetup
  cases hsetup
  cases hfile : textOf? (a.get? .logFile) with
  | none =>
      obtain ⟨rfl, hconfined⟩ := setUp_console (fun _ => False) hfile hforeign hjournal
      exact ⟨fun q _ => .inl rfl, fun level source message q _ =>
        .inl (log_confined (j := { journal with hooked := true }) hconfined _ _ _ q id)⟩
  | some file =>
      -- up to `s₂` the way to the log file was made; after that only this file changes
      obtain ⟨hconfined, s₂, hgrows, honly⟩ := setUp_confined (w := journalSetup a) hfile rfl
        hforeign hjournal
      have hlogs {after : Store} (honly : OnlyAt (· = logPlace file) s₂ after) :
          OnlyLogs a s.store after := by
        intro q hq
        rcases hgrows q with heq | ⟨hway, hnone, hmade⟩
        · exact .inl ((honly q (hq file hfile)).trans heq)
        · exact .inr ⟨file, hfile, hway, hnone, (honly q (hq file hfile)).trans hmade⟩
      exact ⟨hlogs honly, fun level source message => hlogs (honly.trans
        (log_confined (j := { journal with hooked := true }) hconfined _ _ _))⟩

/-! ## Codes -/

/-- A session without a valid job ends with the code of an invalid job exactly if its job file is
legible, and otherwise the failure breaks out.  In either case it changes only what belongs to the
log, if no handler from before writes to a file. -/
theorem run_invalid_or_escaped (hread : CommandLine.read words = .ok a)
    (hsetup : s.setUp a = (.ok (), s₁)) (hjob : jobOf a s₁.store s₁.fits = .error fault) :
    ((∀ file, textOf? (a.get? .job) = some file → Legible s₁.store (Path.ofString file) s₁.fits) →
      (run words s).1 = .returned invalid) ∧
    ((∃ file, textOf? (a.get? .job) = some file ∧ ¬ Legible s₁.store (Path.ofString file) s₁.fits) →
      ∃ e, (run words s).1 = .escaped e) ∧
    ((∀ h ∈ s.journal.withoutInstalled.handlers, h.sink = .console) →
      OnlyLogs a s.store (run words s).2.store) := by
  have hcomplaint := exists_complaint_iff_legible hjob
  -- what is complained of is logged and has a code; everything else leaves before that
  cases hmessage : complaint fault with
  | ok message =>
      have hrun : run words s = (.returned invalid, s₁.log Journal.Level.error source message) := by
        simp only [run, hread, runWith, hsetup, hjob, hmessage]
      have hlegible := hcomplaint.mp ⟨message, hmessage⟩
      rw [hrun]
      refine ⟨fun _ => rfl, ?_, fun hforeign => (onlyLogs_setUp hforeign hsetup).2 _ _ _⟩
      rintro ⟨file, hfile, hnot⟩
      exact absurd (hlegible file hfile) hnot
  | error escape =>
      have hrun : run words s = (.escaped escape, s₁) := by
        simp only [run, hread, runWith, hsetup, hjob, hmessage]
      rw [hrun]
      refine ⟨fun hlegible => ?_, fun _ => ⟨escape, rfl⟩,
        fun hforeign => (onlyLogs_setUp hforeign hsetup).1⟩
      obtain ⟨message, hok⟩ := hcomplaint.mpr hlegible
      rw [hmessage] at hok
      cases hok

/-- A job file that is missing makes the job invalid, and one that is no text breaks the session
off. -/
theorem run_invalid_or_escaped_no_text :
    (run ["--job", "j.yaml"] (onFiles [])).1 = .returned invalid ∧
      ∃ e, (run ["--job", "j.yaml"]
        (onFiles [(⟨.above 0, ["j.yaml"]⟩, .file (.bytes ⟨#[0xff]⟩))])).1 = .escaped e := by
  constructor
  · refine (run_invalid_or_escaped (s := onFiles [])
      (show CommandLine.read ["--job", "j.yaml"] = .ok _ from rfl) rfl rfl).1 ?_
    intro file hfile
    cases hfile
    exact .inl rfl
  · refine (run_invalid_or_escaped
      (s := onFiles [(⟨.above 0, ["j.yaml"]⟩, .file (.bytes ⟨#[0xff]⟩))])
      (show CommandLine.read ["--job", "j.yaml"] = .ok _ from rfl) rfl rfl).2.1
      ⟨"j.yaml", rfl, ?_⟩
    have hload : Yaml.loadFile ⟨[(⟨.above 0, ["j.yaml"]⟩, .file (.bytes ⟨#[0xff]⟩))]⟩
      ⟨.relative, ["j.yaml"]⟩ = .error .notText := rfl
    rintro (hstat | ⟨d, hd, -⟩)
    · cases hstat
    · cases hload.symm.trans hd

end LoopPainter.Session
