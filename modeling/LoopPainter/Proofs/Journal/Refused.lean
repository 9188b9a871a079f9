import LoopPainter.Proofs.Journal.Handlers

/-!
# What a refused call leaves behind

Of the two mistakes that can be made in the arguments of `setUp`, an unknown level is found before
anything is done.  An unknown way of rotation is found only where the log file would be opened, and
only if there is one: by then the old handlers are gone (`refused_setUp`).
-/

namespace LoopPainter

namespace Journal

variable {foreign : List Handler} {w : Setup} {terminal : Bool} {level : Level} {j j' : Journal}
  {s : Store} {name mode : String}

/-- The handlers, the notes, the level of the root and the fields are the same. -/
structure Same (j j' : Journal) : Prop where
  handlers : j'.handlers = j.handlers
  installed : j'.installed = j.installed
  rootLevel : j'.rootLevel = j.rootLevel
  fields : j'.fields = j.fields

theorem setUp_of_unknownLevel (h : Level.ofName? w.level = none) :
    setUp w terminal j s = (.error (.unknownLevel w.level), j, s) := by
  rw [setUp, h]

/-- An unknown level is found first. -/
theorem setUp_unknownLevel_iff (w : Setup) (terminal : Bool) (j : Journal) (s : Store) :
    (setUp w terminal j s).1 = .error (.unknownLevel name) ↔
      Level.ofName? w.level = none ∧ name = w.level := by
  have houtcome := outcome_setUp w terminal j s
  generalize setUp w terminal j s = answer at houtcome ⊢
  cases houtcome with
  | unknownLevel hlevel => simp [hlevel, eq_comm]
  | noFile hlevel => simp [hlevel]
  | @failed level file fault s' hlevel _ hopen =>
      have hopened := opened_openFile file w.rotation s
      rw [hopen] at hopened
      cases hopened <;> simp [hlevel]
  | file hlevel => simp [hlevel]

/-- An unknown way of rotation is found if there is a log file and the way to it is clear. -/
theorem setUp_unknownMode_iff (w : Setup) (terminal : Bool) (j : Journal) (s : Store) :
    (setUp w terminal j s).1 = .error (.unknownMode mode) ↔
      (Level.ofName? w.level).isSome ∧ w.rotation = some (.unknown mode) ∧
        ∃ file, w.logFile = some file ∧ s.Clear (Path.ofString file).parent := by
  have houtcome := outcome_setUp w terminal j s
  generalize setUp w terminal j s = answer at houtcome ⊢
  cases houtcome with
  | unknownLevel hlevel => simp [hlevel]
  | noFile hlevel hfile => simp [hfile]
  -- only opening the log file looks at the way of rotation, after the way to the file
  | @failed level file fault s' hlevel hfile hopen =>
      have hopened := opened_openFile file w.rotation s
      rw [hopen] at hopened
      cases hopened with
      | barred f _ hway => simp [hlevel, hfile, hway]
      | unknownMode _ hway hmode => simp [hlevel, hfile, hway, hmode, eq_comm]
      | unopened f _ hmode => simp [hmode]
      | badPeriod f _ hmode => simp [hmode]
  | @file level file sink s' hlevel hfile hopen =>
      have hopened := opened_openFile file w.rotation s
      rw [hopen] at hopened
      cases hopened with
      | opened f _ hmode => simp [hmode]

/-- The old handlers go and the new level comes before the way of rotation is looked at. -/
theorem setUp_unknownMode (h : (setUp w terminal j s).1 = .error (.unknownMode mode)) :
    ∃ level, Level.ofName? w.level = some level ∧
      (setUp w terminal j s).2.1 = prepared w terminal level j := by
  have houtcome := outcome_setUp w terminal j s
  generalize setUp w terminal j s = answer at houtcome h ⊢
  cases houtcome with
  | unknownLevel => cases h
  | noFile => cases h
  | failed hlevel => exact ⟨_, hlevel, rfl⟩
  | file => cases h

/-- Nothing is lost by this exactly if no handlers were set up before, and no console and no other
level are asked for. -/
theorem Booked.same_prepared_iff (h : Booked foreign j) :
    Same j (Journal.prepared w terminal level j) ↔
      j.installed = [] ∧ w.toConsole = false ∧ j.rootLevel = level := by
  constructor
  · intro hsame
    have hinstalled := hsame.installed
    have hlevel := hsame.rootLevel
    rw [installed_prepared] at hinstalled
    rw [rootLevel_prepared] at hlevel
    cases hconsole : w.consoleHandler? terminal j.next with
    | none =>
        rw [hconsole] at hinstalled
        exact ⟨hinstalled.symm, consoleHandler?_eq_none.mp hconsole, hlevel.symm⟩
    | some x =>
        -- the new console would have been there before
        obtain ⟨-, rfl⟩ := consoleHandler?_eq_some.mp hconsole
        refine absurd ?_ h.next_notMem_installed
        rw [← hinstalled, hconsole]
        exact List.mem_singleton.mpr rfl
  · rintro ⟨hinstalled, hto, rfl⟩
    have hconsole : w.consoleHandler? terminal j.next = none := consoleHandler?_eq_none.mpr hto
    refine ⟨?_, ?_, rootLevel_prepared, fields_prepared⟩
    · rw [Journal.handlers_prepared, hconsole]
      simp [Journal.withoutInstalled, hinstalled]
    · rw [installed_prepared, hconsole, hinstalled]
      rfl

open Situation

/-- An unknown level is found before anything is done. An unknown way of rotation is found once the
directories on the way to the log file are there. By then only the handlers of others are left, with
the new console behind them, and the level is the new one. So such a call changes nothing only if no
handlers were set up before, and no console and no other level are asked for. -/
theorem refused_setUp {events : List Event} {answer : Except SetupFault Unit} {s' : Store}
    (h : setUp w terminal (after events).journal s = (answer, j', s')) :
    (∀ name, answer = .error (.unknownLevel name) ↔
      Level.ofName? w.level = none ∧ name = w.level) ∧
    (∀ mode, answer = .error (.unknownMode mode) ↔
      (Level.ofName? w.level).isSome ∧ w.rotation = some (.unknown mode) ∧
        ∃ file, w.logFile = some file ∧ s.Clear (Path.ofString file).parent) ∧
    (∀ name, answer = .error (.unknownLevel name) → j' = (after events).journal ∧ s' = s) ∧
    ∀ mode, answer = .error (.unknownMode mode) →
      Level.ofName? w.level = some j'.rootLevel ∧
      j'.fields = (after events).journal.fields ∧
      j'.installedHandlers = (w.consoleHandler? terminal (after events).journal.next).toList ∧
      j'.handlers = (after events).foreign ++ j'.installedHandlers ∧
      (Same (after events).journal j' ↔ (after events).journal.installed = [] ∧
        w.toConsole = false ∧ (after events).journal.rootLevel = j'.rootLevel) := by
  have hbooked := (inOrder_after events).booked
  generalize (after events).journal = j, (after events).foreign = foreign at h hbooked ⊢
  have hlevel (name : String) : answer = .error (.unknownLevel name) ↔
      Level.ofName? w.level = none ∧ name = w.level := by
    rw [← setUp_unknownLevel_iff w terminal j s, h]
  have hmode (mode : String) : answer = .error (.unknownMode mode) ↔
      (Level.ofName? w.level).isSome ∧ w.rotation = some (.unknown mode) ∧
        ∃ file, w.logFile = some file ∧ s.Clear (Path.ofString file).parent := by
    rw [← setUp_unknownMode_iff w terminal j s, h]
  refine ⟨hlevel, hmode, ?_, ?_⟩
  · intro name hanswer
    rw [setUp_of_unknownLevel ((hlevel name).mp hanswer).1] at h
    cases h
    exact ⟨rfl, rfl⟩
  · rintro mode rfl
    -- what is left is the journal as it was prepared for the handlers that never came
    obtain ⟨level, hname, hj⟩ := setUp_unknownMode (congrArg Prod.fst h)
    rw [h] at hj
    obtain rfl : j' = prepared w terminal level j := hj
    have hinstalled := (hbooked.prepared w terminal level).installedHandlers_eq
      (hbooked.handlers_prepared w terminal level)
    refine ⟨by rw [hname, rootLevel_prepared], fields_prepared, hinstalled, ?_, ?_⟩
    · rw [hbooked.handlers_prepared, hinstalled]
    · rw [hbooked.same_prepared_iff, rootLevel_prepared]

/-- A call for a log file that starts anew every week. -/
def weekly : Setup where
  level := "DEBUG"
  toConsole := false
  file := some "b.log"
  rotation := some (.unknown "weekly")

/-- Such a call loses the log file that there was. -/
theorem refused_setUp_weekly :
    ∃ j' s', setUp weekly false (after [.setUp { file := some "a.log" } false {}]).journal {} =
        (.error (.unknownMode "weekly"), j', s') ∧
      (after [.setUp { file := some "a.log" } false {}]).journal.installed = [0, 1] ∧
      j'.handlers = [] ∧ j'.rootLevel = Level.debug ∧
      ¬ Same (after [.setUp { file := some "a.log" } false {}]).journal j' := by
  have hrun : ∃ j' s', setUp weekly false
      (after [.setUp { file := some "a.log" } false {}]).journal {} =
        (.error (.unknownMode "weekly"), j', s') := ⟨_, _, rfl⟩
  obtain ⟨j', s', hrun⟩ := hrun
  obtain ⟨-, -, -, hmode⟩ := refused_setUp hrun
  obtain ⟨hlevel, -, hinstalled, hhandlers, hsame⟩ := hmode "weekly" rfl
  have hdebug : Level.ofName? "DEBUG" = some Level.debug := by decide
  refine ⟨j', s', hrun, by decide, ?_, Option.some_inj.mp (hlevel.symm.trans hdebug), ?_⟩
  · rw [hhandlers, hinstalled]
    rfl
  · rw [hsame]
    exact fun hnone => absurd hnone.1 (by decide)

end Journal

end LoopPainter
