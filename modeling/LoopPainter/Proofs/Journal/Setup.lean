import LoopPainter.Journal.Setup
import LoopPainter.Proofs.Store.Clear

/-!
# What setting up does

Setting up is opened once, here, in the order in which things are done: the old handlers go, the
level is set and the console comes (`prepared`); then the log file, if one is named, is opened
(`Opened`); and only then comes what cannot fail (`finish`).  `outcome_setUp` lists what can come of
it; an unknown level is the only failure that comes before all of this.
-/

namespace LoopPainter

open Store

namespace Journal

variable {w : Setup} {terminal : Bool} {level : Level} {j : Journal} {s s' : Store} {file : String}
  {rotation : Option RotationPlan}

/-! ## Up to the console -/

/-- The name of the log file, unless it is empty. -/
def Setup.logFile (w : Setup) : Option String :=
  w.file.filter (· ≠ "")

/-- The handler of the console, if one is asked for. -/
def Setup.consoleHandler? (w : Setup) (terminal : Bool) (number : Nat) : Option Handler :=
  if w.toConsole then some ⟨number, w.consoleForm terminal, .console⟩ else none

/-- The journal without the old handlers, with the new level and the handler of the console. -/
def prepared (w : Setup) (terminal : Bool) (level : Level) (j : Journal) : Journal :=
  let j := { j.withoutInstalled with rootLevel := level }
  if w.toConsole then j.install (w.consoleForm terminal) .console else j

theorem consoleHandler?_eq_some {h : Handler} {n : Nat} : w.consoleHandler? terminal n = some h ↔
    w.toConsole = true ∧ h = ⟨n, w.consoleForm terminal, .console⟩ := by
  unfold Setup.consoleHandler?
  split
  · next hconsole => simp [hconsole, eq_comm]
  · next hconsole => simp [hconsole]

theorem consoleHandler?_eq_none {n : Nat} :
    w.consoleHandler? terminal n = none ↔ w.toConsole = false := by
  unfold Setup.consoleHandler?
  cases w.toConsole <;> simp

@[simp] theorem isSome_consoleHandler? (n : Nat) :
    (w.consoleHandler? terminal n).isSome = w.toConsole := by
  unfold Setup.consoleHandler?
  cases w.toConsole <;> rfl

@[simp] theorem handlers_prepared : (prepared w terminal level j).handlers =
    j.withoutInstalled.handlers ++ (w.consoleHandler? terminal j.next).toList := by
  unfold prepared Setup.consoleHandler?
  dsimp only
  split
  · rfl
  · exact (List.append_nil _).symm

@[simp] theorem installed_prepared : (prepared w terminal level j).installed =
    (w.consoleHandler? terminal j.next).toList.map Handler.number := by
  unfold prepared Setup.consoleHandler?
  dsimp only
  split <;> rfl

@[simp] theorem rootLevel_prepared : (prepared w terminal level j).rootLevel = level := by
  unfold prepared
  dsimp only
  split <;> rfl

@[simp] theorem fields_prepared : (prepared w terminal level j).fields = j.fields := by
  unfold prepared
  dsimp only
  split <;> rfl

theorem next_le_prepared : j.next ≤ (prepared w terminal level j).next := by
  unfold prepared
  dsimp only
  split
  · exact Nat.le_succ _
  · exact le_rfl

/-! ## The log file -/

/-- The rotation that a plan asks for. -/
def Rotation.ofPlan : Option RotationPlan → Rotation
  | some (.bySize limit backups) => .bySize limit backups
  | some (.byTime _ _ _) => .byTime
  | _ => .never

/-- Check the period of a rotation by time. -/
def checkPlan : Option RotationPlan → SetupAction Unit
  | some (.byTime period _ _) => ExceptT.mk (pure ((checkPeriod period).mapError .period))
  | _ => pure ()

theorem openFile_unknown (file mode : String) :
    openFile file (some (.unknown mode)) = (do
      (ensureDirectory (Path.ofString file).parent).adapt .store
      throw (.unknownMode mode)) := rfl

theorem openFile_known (file : String) (hmode : ∀ mode, rotation ≠ some (.unknown mode)) :
    openFile file rotation = (do
      (ensureDirectory (Path.ofString file).parent).adapt .store
      let f ← (LogFile.atEnd (Path.ofString file).normalized).adapt .store
      checkPlan rotation
      return .file (.ofPlan rotation) f) := by
  rcases rotation with _ | _ | ⟨period, interval, backups⟩ | mode
  · rfl
  · rfl
  · dsimp only [openFile, checkPlan]
    cases checkPeriod period <;> rfl
  · exact absurd rfl (hmode mode)

/-- What can come of opening a log file. -/
inductive Opened (file : String) (rotation : Option RotationPlan) (s : Store) :
    Except SetupFault Sink × Store → Prop where
  /-- The directories on the way to the file cannot be made. -/
  | barred (f : Fault) (s' : Store) (hway : ¬ s.Clear (Path.ofString file).parent) :
      Opened file rotation s (.error (.store f), s')
  | unknownMode {mode : String} (s' : Store) (hway : s.Clear (Path.ofString file).parent)
      (hmode : rotation = some (.unknown mode)) :
      Opened file rotation s (.error (.unknownMode mode), s')
  | unopened (f : Fault) (s' : Store) (hmode : ∀ mode, rotation ≠ some (.unknown mode)) :
      Opened file rotation s (.error (.store f), s')
  | badPeriod (f : PeriodFault) (s' : Store) (hmode : ∀ mode, rotation ≠ some (.unknown mode)) :
      Opened file rotation s (.error (.period f), s')
  | opened (f : LogFile) (s' : Store) (hmode : ∀ mode, rotation ≠ some (.unknown mode))
      (hpath : f.path = (Path.ofString file).normalized) :
      Opened file rotation s (.ok (.file (.ofPlan rotation) f), s')

/-- A file is opened at the path that was asked for. -/
theorem path_of_atEnd {path : Path} {f : LogFile} (h : (LogFile.atEnd path).run s = (.ok f, s')) :
    f.path = path := by
  rw [LogFile.atEnd] at h
  rcases reach_cases path s with ⟨-, hreach⟩ | ⟨e, hreach⟩
  · rw [run_bind_ok hreach] at h
    split at h
    · cases h
      rfl
    · cases h
      rfl
    · rcases writeFile_cases path (.bytes ByteArray.empty) s with ⟨-, -, hrun⟩ | ⟨e, hrun⟩
      · rw [run_bind_ok hrun] at h
        cases h
        rfl
      · rw [run_bind_error hrun] at h
        cases h
  · rw [run_bind_error hreach] at h
    cases h

theorem run_checkPlan (rotation : Option RotationPlan) (s : Store) :
    (checkPlan rotation).run s = (.ok (), s) ∨
      ∃ f, (checkPlan rotation).run s = (.error (.period f), s) := by
  unfold checkPlan
  split
  · next period _ _ =>
      cases checkPeriod period with
      | ok _ => exact .inl rfl
      | error f => exact .inr ⟨f, rfl⟩
  · exact .inl rfl

theorem opened_openFile (file : String) (rotation : Option RotationPlan) (s : Store) :
    Opened file rotation s ((openFile file rotation).run s) := by
  have hclear := @exists_ensureDirectory_iff s (Path.ofString file).parent
  -- the way to the file comes first, and the plan is checked last
  rcases hmade : (ensureDirectory (Path.ofString file).parent).run s with ⟨f | _, s₁⟩
  · have hfails : (openFile file rotation).run s = (.error (.store f), s₁) := by
      unfold openFile
      dsimp only
      rw [run_bind, run_adapt, hmade]
    rw [hfails]
    refine .barred f s₁ fun hway => ?_
    obtain ⟨s₂, hok⟩ := hclear.mpr hway
    rw [hmade] at hok
    cases hok
  · by_cases hmode : ∃ mode, rotation = some (.unknown mode)
    · -- the mode is looked at only now
      obtain ⟨mode, rfl⟩ := hmode
      rw [openFile_unknown, run_bind, run_adapt, hmade]
      exact .unknownMode s₁ (hclear.mp ⟨s₁, hmade⟩) rfl
    · rw [not_exists] at hmode
      rw [openFile_known file hmode, run_bind, run_adapt, hmade]
      dsimp only
      rw [run_bind, run_adapt]
      rcases hopen : (LogFile.atEnd (Path.ofString file).normalized).run s₁ with ⟨f | f, s₂⟩
      · exact .unopened f s₂ hmode
      · dsimp only
        rcases run_checkPlan rotation s₂ with hcheck | ⟨e, hcheck⟩
        · rw [run_bind_ok hcheck]
          exact .opened f s₂ hmode (path_of_atEnd hopen)
        · rw [run_bind_error hcheck]
          exact .badPeriod e s₂ hmode

/-! ## After the handlers -/

/-- The level of the root in the end: the root may itself be one of the quiet sources. -/
def Setup.finalLevel (w : Setup) (level : Level) : Level :=
  if w.quiet.any isRoot then Level.warning else level

theorem quieten_eq (sources : List String) (j : Journal) :
    ∃ levels, sources.foldl (fun j source => setLevel source Level.warning j) j =
      { j with
        rootLevel := if sources.any isRoot then Level.warning else j.rootLevel
        levels := levels } := by
  induction sources generalizing j with
  | nil => exact ⟨j.levels, rfl⟩
  | cons source sources ih =>
      obtain ⟨levels, heq⟩ := ih (setLevel source Level.warning j)
      rw [List.foldl_cons, heq, List.any_cons, setLevel]
      refine ⟨levels, ?_⟩
      cases isRoot source
      · simp
      · simp

/-- What comes after the handlers changes only levels, fields and whether warnings are logged. -/
theorem finish_eq (w : Setup) (j : Journal) :
    ∃ levels capturing, finish w j =
      { j with
        fields := Fields.push w.fields j.fields
        rootLevel := w.finalLevel j.rootLevel
        levels := levels
        capturing := capturing } := by
  obtain ⟨levels, heq⟩ := quieten_eq w.quiet (j.push w.fields)
  unfold finish
  dsimp only
  rw [heq]
  split
  · exact ⟨_, true, rfl⟩
  · exact ⟨levels, j.capturing, rfl⟩

@[simp] theorem handlers_finish (w : Setup) (j : Journal) :
    (finish w j).handlers = j.handlers := by
  obtain ⟨levels, capturing, heq⟩ := finish_eq w j
  rw [heq]

@[simp] theorem installed_finish (w : Setup) (j : Journal) :
    (finish w j).installed = j.installed := by
  obtain ⟨levels, capturing, heq⟩ := finish_eq w j
  rw [heq]

@[simp] theorem next_finish (w : Setup) (j : Journal) : (finish w j).next = j.next := by
  obtain ⟨levels, capturing, heq⟩ := finish_eq w j
  rw [heq]

@[simp] theorem rootLevel_finish (w : Setup) (j : Journal) :
    (finish w j).rootLevel = w.finalLevel j.rootLevel := by
  obtain ⟨levels, capturing, heq⟩ := finish_eq w j
  rw [heq]

/-! ## All outcomes -/

/-- What can come of setting up. -/
inductive Setup.Outcome (w : Setup) (terminal : Bool) (j : Journal) (s : Store) :
    Except SetupFault Unit × Journal × Store → Prop where
  | unknownLevel (hlevel : Level.ofName? w.level = none) :
      Outcome w terminal j s (.error (.unknownLevel w.level), j, s)
  | noFile {level : Level} (hlevel : Level.ofName? w.level = some level) (hfile : w.logFile = none) :
      Outcome w terminal j s (.ok (), finish w (prepared w terminal level j), s)
  | failed {level : Level} {file : String} {fault : SetupFault} {s' : Store}
      (hlevel : Level.ofName? w.level = some level) (hfile : w.logFile = some file)
      (hopen : (openFile file w.rotation).run s = (.error fault, s')) :
      Outcome w terminal j s (.error fault, prepared w terminal level j, s')
  | file {level : Level} {file : String} {sink : Sink} {s' : Store}
      (hlevel : Level.ofName? w.level = some level) (hfile : w.logFile = some file)
      (hopen : (openFile file w.rotation).run s = (.ok sink, s')) :
      Outcome w terminal j s
        (.ok (), finish w ((prepared w terminal level j).install w.fileForm sink), s')

theorem outcome_setUp (w : Setup) (terminal : Bool) (j : Journal) (s : Store) :
    w.Outcome terminal j s (setUp w terminal j s) := by
  unfold setUp
  split
  · next hlevel => exact .unknownLevel hlevel
  · next level hlevel =>
      dsimp only
      split
      · next hfile => exact .noFile hlevel (by rw [Setup.logFile, hfile]; rfl)
      · next file hfile =>
          split
          · next hempty =>
              exact .noFile hlevel (by rw [Setup.logFile, hfile, hempty]; rfl)
          · next hname =>
              have hlog : w.logFile = some file := by
                rw [Setup.logFile, hfile, Option.filter_some, if_pos (decide_eq_true hname)]
              split
              · next fault s' hopen => exact .failed hlevel hlog hopen
              · next sink s' hopen => exact .file hlevel hlog hopen

end Journal

end LoopPainter
