import LoopPainter.Proofs.Journal.Setup
import Mathlib.Data.List.Induction

/-!
# Which handlers there are

The handlers of a journal are those of others and those that were set up, which it notes
(`Booked`).  A call of `setUp` keeps these books whether it returns or fails, and so does everything
else that happens to a journal (`Situation.booked_after`).  So a call that returns finds the
handlers of all earlier calls, removes them, and adds its own behind those of others
(`handlers_after`).
-/

namespace LoopPainter

namespace Journal

variable {foreign : List Handler} {w : Setup} {terminal : Bool} {level : Level} {j j' : Journal}
  {s s' : Store}

/-! ## The books -/

/-- Every handler has a number of its own, which has been given out. -/
structure Numbered (j : Journal) : Prop where
  below : ∀ h ∈ j.handlers, h.number < j.next
  distinct : (j.handlers.map Handler.number).Nodup

/-- The handlers that others have not added are noted in order. -/
structure Booked (foreign : List Handler) (j : Journal) : Prop extends Numbered j where
  noted : j.installedHandlers.map Handler.number = j.installed
  others : (j.handlers.filter fun h => !j.installed.contains h.number) = foreign

theorem booked_empty : Booked [] {} where
  below := fun _ hmem => absurd hmem List.not_mem_nil
  distinct := List.nodup_nil
  noted := rfl
  others := rfl

namespace Booked

theorem congr (h : Booked foreign j) (hhandlers : j'.handlers = j.handlers)
    (hinstalled : j'.installed = j.installed) (hnext : j'.next = j.next) : Booked foreign j' where
  below := by
    rw [hhandlers, hnext]
    exact h.below
  distinct := by
    rw [hhandlers]
    exact h.distinct
  noted := by
    rw [installedHandlers, hhandlers, hinstalled]
    exact h.noted
  others := by
    rw [hhandlers, hinstalled]
    exact h.others

theorem mem_foreign_iff (h : Booked foreign j) {x : Handler} :
    x ∈ foreign ↔ x ∈ j.handlers ∧ x.number ∉ j.installed := by
  rw [← h.others]
  simp

/-- The next number is not noted. -/
theorem next_notMem_installed (h : Booked foreign j) : j.next ∉ j.installed := by
  rw [← h.noted]
  intro hmem
  obtain ⟨x, hx, hnumber⟩ := List.mem_map.mp hmem
  have hlt := h.below x (List.mem_filter.mp hx).1
  omega

/-- The handlers that were set up are those behind the ones of others. -/
theorem installedHandlers_eq (h : Booked foreign j) {created : List Handler}
    (hcreated : j.handlers = foreign ++ created) : j.installedHandlers = created := by
  have hforeign : (foreign.filter fun x => j.installed.contains x.number) = [] := by
    rw [List.filter_eq_nil_iff]
    intro x hx
    simpa using (h.mem_foreign_iff.mp hx).2
  have hothers : (created.filter fun x => !j.installed.contains x.number) = [] := by
    have hsplit := h.others
    rw [hcreated, List.filter_append, List.filter_eq_self.mpr] at hsplit
    · exact List.append_right_eq_self.mp hsplit
    · intro x hx
      simpa using (h.mem_foreign_iff.mp hx).2
  rw [installedHandlers, hcreated, List.filter_append, hforeign, List.nil_append,
    List.filter_eq_self]
  intro x hx
  simpa using List.filter_eq_nil_iff.mp hothers x hx

end Booked

/-! ## What keeps the books -/

theorem Numbered.addHandler (h : Numbered j) (form : Form) (sink : Sink) :
    Numbered (j.addHandler form sink) where
  below := by
    intro x hx
    change x.number < j.next + 1
    rcases List.mem_append.mp hx with hx | hx
    · exact Nat.lt_succ_of_lt (h.below x hx)
    · rw [List.mem_singleton.mp hx]
      exact Nat.lt_succ_self _
  distinct := by
    have hnew : j.next ∉ j.handlers.map Handler.number := by
      intro hmem
      obtain ⟨x, hx, hnumber⟩ := List.mem_map.mp hmem
      have hlt := h.below x hx
      omega
    change ((j.handlers ++ [_]).map Handler.number).Nodup
    rw [List.map_append, List.map_singleton, List.nodup_append]
    refine ⟨h.distinct, by simp, ?_⟩
    rintro n hn m hm rfl
    rw [List.mem_singleton.mp hm] at hn
    exact hnew hn

/-- Another part of the program adds a new handler. -/
theorem Booked.addHandler (h : Booked foreign j) (form : Form) (sink : Sink) :
    Booked (foreign ++ [⟨j.next, form, sink⟩]) (j.addHandler form sink) where
  toNumbered := h.toNumbered.addHandler form sink
  noted := by
    have hskip : (j.addHandler form sink).installedHandlers = j.installedHandlers := by
      simp [installedHandlers, Journal.addHandler, h.next_notMem_installed]
    rw [hskip]
    exact h.noted
  others := by
    change ((j.handlers ++ [_]).filter fun x : Handler => !j.installed.contains x.number) = _
    rw [List.filter_append, List.filter_cons_of_pos (by simpa using h.next_notMem_installed)]
    exact congrArg (· ++ _) h.others

/-- The old handlers are removed. -/
theorem Booked.withoutInstalled (h : Booked foreign j) : Booked foreign j.withoutInstalled where
  below := fun x hx => h.below x (List.mem_filter.mp hx).1
  distinct := h.distinct.sublist (List.filter_sublist.map _)
  noted := by
    simp [installedHandlers, Journal.withoutInstalled]
  others := by
    simp [Journal.withoutInstalled, ← h.others]

/-- A handler is set up. -/
theorem Booked.install (h : Booked foreign j) (form : Form) (sink : Sink) :
    Booked foreign (j.install form sink) := by
  have hnumbered := h.toNumbered.addHandler form sink
  -- the handlers that there were have other numbers
  have hold : ∀ x ∈ j.handlers,
      (j.installed ++ [j.next]).contains x.number = j.installed.contains x.number := by
    intro x hx
    have hne : x.number ≠ j.next := (h.below x hx).ne
    simp [hne]
  refine ⟨⟨hnumbered.below, hnumbered.distinct⟩, ?_, ?_⟩
  · change ((j.handlers ++ [_]).filter fun x : Handler =>
      (j.installed ++ [j.next]).contains x.number).map _ = j.installed ++ [j.next]
    rw [List.filter_append, List.filter_congr hold, List.filter_cons_of_pos (by simp),
      List.map_append]
    exact congrArg (· ++ _) h.noted
  · change ((j.handlers ++ [_]).filter fun x : Handler =>
      !(j.installed ++ [j.next]).contains x.number) = foreign
    rw [List.filter_append, List.filter_cons_of_neg (by simp), List.filter_nil, List.append_nil,
      ← h.others]
    exact List.filter_congr fun x hx => congrArg not (hold x hx)

theorem Booked.prepared (h : Booked foreign j) (w : Setup) (terminal : Bool) (level : Level) :
    Booked foreign (prepared w terminal level j) := by
  have hlevel : Booked foreign { j.withoutInstalled with rootLevel := level } :=
    h.withoutInstalled.congr rfl rfl rfl
  unfold Journal.prepared
  dsimp only
  split
  · exact hlevel.install _ _
  · exact hlevel

/-- The new console stands behind the handlers of others. -/
theorem Booked.handlers_prepared (h : Booked foreign j) (w : Setup) (terminal : Bool)
    (level : Level) :
    (Journal.prepared w terminal level j).handlers =
      foreign ++ (w.consoleHandler? terminal j.next).toList := by
  rw [Journal.handlers_prepared, ← h.others]
  rfl

theorem Booked.finish (h : Booked foreign j) (w : Setup) : Booked foreign (finish w j) :=
  h.congr (handlers_finish w j) (installed_finish w j) (next_finish w j)

/-- A call keeps the books, whatever comes of it. -/
theorem Booked.setUp (h : Booked foreign j) (w : Setup) (terminal : Bool) (s : Store) :
    Booked foreign (setUp w terminal j s).2.1 := by
  have houtcome := outcome_setUp w terminal j s
  generalize Journal.setUp w terminal j s = answer at houtcome ⊢
  cases houtcome with
  | unknownLevel => exact h
  | noFile => exact (h.prepared w terminal _).finish w
  | failed => exact h.prepared w terminal _
  | file => exact ((h.prepared w terminal _).install _ _).finish w

/-! ## What a call creates -/

/-- The handlers of a call: that of the console if it is asked for, and then that of the log file if
one is named. -/
structure Setup.Creates (w : Setup) (terminal : Bool) (console file : Option Handler) : Prop where
  console_isSome : console.isSome = w.toConsole
  console_kind : ∀ h ∈ console, h.form = w.consoleForm terminal ∧ h.sink = .console
  file_isSome : file.isSome = w.logFile.isSome
  file_kind : ∀ h ∈ file, ∀ name ∈ w.logFile, h.form = w.fileForm ∧
    ∃ f, h.sink = .file (.ofPlan w.rotation) f ∧ f.path = (Path.ofString name).normalized

/-- A call that returns adds new handlers behind those of others. -/
theorem Booked.handlers_setUp (h : Booked foreign j)
    (hrun : Journal.setUp w terminal j s = (.ok (), j', s')) :
    ∃ console file, w.Creates terminal console file ∧
      j'.handlers = foreign ++ (console.toList ++ file.toList) ∧
      ∀ x ∈ console.toList ++ file.toList, j.next ≤ x.number := by
  have hkind : ∀ x ∈ w.consoleHandler? terminal j.next,
      x.form = w.consoleForm terminal ∧ x.sink = .console := by
    intro x hx
    obtain ⟨-, rfl⟩ := consoleHandler?_eq_some.mp hx
    exact ⟨rfl, rfl⟩
  have hnew : ∀ x ∈ (w.consoleHandler? terminal j.next).toList, j.next ≤ x.number := by
    intro x hx
    obtain ⟨-, rfl⟩ := consoleHandler?_eq_some.mp (Option.mem_toList.mp hx)
    exact le_rfl
  -- a call that returns has opened its log file, or has none
  have houtcome := outcome_setUp w terminal j s
  rw [hrun] at houtcome
  cases houtcome with
  | @noFile level hlevel hfile =>
      refine ⟨w.consoleHandler? terminal j.next, none,
        ⟨isSome_consoleHandler? _, hkind, by rw [hfile]; rfl, nofun⟩, ?_, ?_⟩
      · rw [handlers_finish, h.handlers_prepared, Option.toList_none, List.append_nil]
      · rwa [Option.toList_none, List.append_nil]
  | @file level name sink _ hlevel hfile hopen =>
      have hopened := opened_openFile name w.rotation s
      rw [hopen] at hopened
      cases hopened with | opened f _ _ hpath =>
      refine ⟨w.consoleHandler? terminal j.next,
        some ⟨(Journal.prepared w terminal level j).next, w.fileForm, .file (.ofPlan w.rotation) f⟩,
        ⟨isSome_consoleHandler? _, hkind, by rw [hfile]; rfl, ?_⟩, ?_, ?_⟩
      · rintro x hx _ hname
        cases hx
        rw [hfile] at hname
        cases hname
        exact ⟨rfl, f, rfl, hpath⟩
      · rw [handlers_finish, ← List.append_assoc, ← h.handlers_prepared w terminal level]
        rfl
      · intro x hx
        rcases List.mem_append.mp hx with hx | hx
        · exact hnew x hx
        · rw [List.mem_singleton.mp hx]
          exact next_le_prepared

theorem next_le_setUp (w : Setup) (terminal : Bool) (j : Journal) (s : Store) :
    j.next ≤ (setUp w terminal j s).2.1.next := by
  have houtcome := outcome_setUp w terminal j s
  generalize setUp w terminal j s = answer at houtcome ⊢
  cases houtcome with
  | unknownLevel => exact le_rfl
  | noFile =>
      rw [next_finish]
      exact next_le_prepared
  | failed => exact next_le_prepared
  | file =>
      rw [next_finish]
      exact Nat.le_succ_of_le next_le_prepared

/-- A call that returns sets the level, unless the root is to be quiet. -/
theorem rootLevel_setUp (hrun : setUp w terminal j s = (.ok (), j', s')) :
    ∃ level, Level.ofName? w.level = some level ∧ j'.rootLevel = w.finalLevel level := by
  have houtcome := outcome_setUp w terminal j s
  rw [hrun] at houtcome
  cases houtcome with
  | noFile hlevel => exact ⟨_, hlevel, by simp⟩
  | file hlevel => exact ⟨_, hlevel, by simp [install, Journal.addHandler]⟩

/-! ## What happens to a journal -/

/-- A handler that is there already is not added again. -/
def addAgain (h : Handler) (j : Journal) : Journal :=
  if h.number ∈ j.handlers.map Handler.number then j
  else { j with handlers := j.handlers ++ [h] }

/-- Something that happens to a journal. -/
inductive Event where
  /-- It is set up, while the store holds something. -/
  | setUp (w : Setup) (terminal : Bool) (s : Store)
  /-- Another part of the program adds a new handler. -/
  | add (form : Form) (sink : Sink)
  /-- Another part of the program adds one of its handlers once more. -/
  | addAgain (i : ℕ)

/-- A journal, and which handlers have been made for it. -/
structure Situation where
  journal : Journal := {}
  /-- The handlers that other parts of the program have added, in order. -/
  foreign : List Handler := []
  /-- The handlers that calls have created so far. -/
  made : List Handler := []

namespace Situation

/-- What becomes of a situation. -/
def step (x : Situation) : Event → Situation
  | .setUp w terminal s =>
    let j := (setUp w terminal x.journal s).2.1
    { x with
      journal := j
      made := x.made ++ j.handlers.filter fun h => x.journal.next ≤ h.number }
  | .add form sink =>
    { x with
      journal := x.journal.addHandler form sink
      foreign := x.foreign ++ [⟨x.journal.next, form, sink⟩] }
  | .addAgain i => (x.foreign[i]?).elim x fun h => { x with journal := x.journal.addAgain h }

/-- The situation after some events. -/
def after (events : List Event) : Situation :=
  events.foldl step {}

/-- The books are kept, and no handler of a call is one of others. -/
structure InOrder (x : Situation) : Prop where
  booked : Booked x.foreign x.journal
  made_below : ∀ h ∈ x.made, h.number < x.journal.next
  made_apart : ∀ h ∈ x.made, h.number ∉ x.foreign.map Handler.number

theorem InOrder.step {x : Situation} (h : x.InOrder) (e : Event) : (x.step e).InOrder := by
  cases e with
  | setUp w terminal s =>
      have hbooked := h.booked.setUp w terminal s
      refine ⟨hbooked, ?_, ?_⟩
      · intro y hy
        rcases List.mem_append.mp hy with hy | hy
        · exact (h.made_below y hy).trans_le (next_le_setUp w terminal x.journal s)
        · exact hbooked.below y (List.mem_filter.mp hy).1
      · intro y hy
        rcases List.mem_append.mp hy with hy | hy
        · exact h.made_apart y hy
        · -- what was created now has a number that no handler of others has been given
          intro hforeign
          obtain ⟨z, hz, hnumber⟩ := List.mem_map.mp hforeign
          have hlt := h.booked.below z (h.booked.mem_foreign_iff.mp hz).1
          have hle : x.journal.next ≤ y.number := by simpa using (List.mem_filter.mp hy).2
          omega
  | add form sink =>
      refine ⟨h.booked.addHandler form sink, ?_, ?_⟩
      · exact fun y hy => Nat.lt_succ_of_lt (h.made_below y hy)
      · intro y hy hforeign
        have hlt := h.made_below y hy
        change y.number ∈ (x.foreign ++ [_]).map Handler.number at hforeign
        -- a new handler of others has the next number, which is above all that were made
        rw [List.map_append] at hforeign
        rcases List.mem_append.mp hforeign with hforeign | hforeign
        · exact h.made_apart y hy hforeign
        · rw [List.mem_singleton.mp hforeign] at hlt
          exact lt_irrefl _ hlt
  | addAgain i =>
      -- a handler that is there already is not added once more
      have hsame : x.step (.addAgain i) = x := by
        cases hget : x.foreign[i]? with
        | none => rw [Situation.step, hget]; rfl
        | some y =>
            have hthere := (h.booked.mem_foreign_iff.mp (List.mem_of_getElem? hget)).1
            rw [Situation.step, hget, Option.elim_some, Journal.addAgain,
              if_pos (List.mem_map_of_mem hthere)]
      rw [hsame]
      exact h

theorem inOrder_after (events : List Event) : (after events).InOrder := by
  induction events using List.reverseRecOn with
  | nil =>
      have hnone (h : Handler) : h ∉ (after []).made := List.not_mem_nil
      exact ⟨booked_empty, fun h hmem => absurd hmem (hnone h), fun h hmem => absurd hmem (hnone h)⟩
  | append_singleton events e ih =>
      rw [after, List.foldl_append]
      exact ih.step e

end Situation

open Situation

/-- Whatever has happened, no handler is there twice, those of others are still there in their
order, and the remaining ones are those that are noted. A call that returns leaves those of others
and behind them those that it creates, which it notes, and none that an earlier call has created.
The root gets the level that was asked for, unless it is one of the sources that are to be quiet. -/
theorem handlers_after (events : List Event) :
    ((after events).journal.handlers.map Handler.number).Nodup ∧
    (after events).foreign.Sublist (after events).journal.handlers ∧
    ((after events).journal.handlers.filter (· ∉ (after events).foreign)).map Handler.number =
      (after events).journal.installed ∧
    ∀ w terminal s j' s', setUp w terminal (after events).journal s = (.ok (), j', s') →
      (∃ console file, w.Creates terminal console file ∧
        j'.handlers = (after events).foreign ++ (console.toList ++ file.toList) ∧
        j'.installedHandlers = console.toList ++ file.toList) ∧
      (∀ h ∈ (after events).made, h.number ∉ j'.handlers.map Handler.number) ∧
      ∃ level, Level.ofName? w.level = some level ∧
        j'.rootLevel = if w.quiet.any isRoot then Level.warning else level := by
  obtain ⟨hbooked, hbelow, hapart⟩ := inOrder_after events
  refine ⟨hbooked.distinct, ?_, ?_, ?_⟩
  · rw [← hbooked.others]
    exact List.filter_sublist
  · have hsame : (after events).journal.handlers.filter (· ∉ (after events).foreign) =
        (after events).journal.installedHandlers := by
      refine List.filter_congr fun x hx => ?_
      simp [hbooked.mem_foreign_iff, hx]
    rw [hsame]
    exact hbooked.noted
  · intro w terminal s j' s' hrun
    have hbooked' := hbooked.setUp w terminal s
    rw [hrun] at hbooked'
    obtain ⟨console, file, hcreates, hhandlers, hnew⟩ := hbooked.handlers_setUp hrun
    refine ⟨⟨console, file, hcreates, hhandlers, hbooked'.installedHandlers_eq hhandlers⟩, ?_,
      rootLevel_setUp hrun⟩
    -- what earlier calls have created has neither the number of a handler of others nor a new one
    intro x hx hmem
    rw [hhandlers, List.map_append] at hmem
    rcases List.mem_append.mp hmem with hmem | hmem
    · exact hapart x hx hmem
    · obtain ⟨y, hy, hnumber⟩ := List.mem_map.mp hmem
      have hlt := hbelow x hx
      have hle := hnew y hy
      omega

/-- Another part of the program adds a handler, one call fails at its log file and leaves its console
behind, and another fails at once. -/
def twoFailures : List Event :=
  [.add {} .console,
    .setUp { file := some "a.log", rotation := some (.unknown "weekly") } false {},
    .addAgain 0, .setUp { level := "loud" } false {}]

theorem handlers_after_twoFailures :
    (after twoFailures).journal.handlers.map Handler.number = [0, 1] ∧
    ∃ j' s', setUp { level := "debug", file := some "b.log" } false (after twoFailures).journal {} =
        (.ok (), j', s') ∧
      1 ∉ j'.handlers.map Handler.number ∧ j'.handlers.length = 3 ∧ j'.rootLevel = Level.debug := by
  obtain ⟨-, -, -, hcall⟩ := handlers_after twoFailures
  have hrun : ∃ j' s', setUp { level := "debug", file := some "b.log" } false
      (after twoFailures).journal {} = (.ok (), j', s') := ⟨_, _, rfl⟩
  obtain ⟨j', s', hrun⟩ := hrun
  obtain ⟨⟨console, file, hcreates, hhandlers, -⟩, hmade, level, hlevel, hroot⟩ :=
    hcall _ _ _ _ _ hrun
  have hdebug : Level.ofName? "debug" = some Level.debug := by decide
  refine ⟨by decide, j', s', hrun, hmade ⟨1, ⟨false, false, true⟩, .console⟩ (by decide), ?_, ?_⟩
  · obtain ⟨c, rfl⟩ := Option.isSome_iff_exists.mp hcreates.console_isSome
    obtain ⟨f, rfl⟩ := Option.isSome_iff_exists.mp hcreates.file_isSome
    rw [hhandlers]
    rfl
  · rw [hroot]
    exact Option.some_inj.mp (hlevel.symm.trans hdebug)

/-- A call may ask for the root to be quiet, and does not set the level of its own then. -/
theorem root_quieted :
    ∃ j' s', setUp { quiet := ["root"] } false (after []).journal {} = (.ok (), j', s') ∧
      Level.ofName? "INFO" = some Level.info ∧ j'.rootLevel = Level.warning ∧
      j'.rootLevel ≠ Level.info :=
  ⟨_, _, rfl, by decide, rfl, by decide⟩

end Journal

end LoopPainter
