import LoopPainter.Proofs.Journal.Setup

/-!
# What logging changes in the store

A handler that never rotates writes to the console or to its own file.  Where all handlers are
`Confined` to some places, logging changes nothing but the entries there (`log_confined`).  Setting
the journal up with a log file confines it to the place of that file, and makes the directories on
the way to it besides (`setUp_confined`); without a log file it changes nothing (`setUp_console`).
-/

namespace LoopPainter

open Store

namespace Journal

variable {touched : Place → Prop} {s s' : Store}

/-! ## Changes at some places -/

/-- Nothing has changed but the entries at some places. -/
def OnlyAt (touched : Place → Prop) (s s' : Store) : Prop :=
  ∀ q, ¬ touched q → s'.find? q = s.find? q

theorem OnlyAt.refl (touched : Place → Prop) (s : Store) : OnlyAt touched s s :=
  fun _ _ => rfl

theorem OnlyAt.trans {s'' : Store} (h : OnlyAt touched s s') (h' : OnlyAt touched s' s'') :
    OnlyAt touched s s'' :=
  fun q hq => (h' q hq).trans (h q hq)

theorem onlyAt_insert {p : Place} (hp : touched p) (hdir : s.find? p ≠ some .directory) (n : Node) :
    OnlyAt touched s (s.insert p n) := by
  intro q hq
  refine find?_insert_of_ne hdir n ?_
  rintro rfl
  exact hq hp

/-- Opening a file makes at most this file. -/
theorem atEnd_onlyAt (touched : Place → Prop) {path : Path} (hpath : touched path.place)
    (s : Store) : OnlyAt touched s ((LogFile.atEnd path).run s).2 := by
  rw [LogFile.atEnd]
  rcases reach_cases path s with ⟨-, hreach⟩ | ⟨e, hreach⟩
  · rw [run_bind_ok hreach]
    split
    · exact .refl _ s
    · exact .refl _ s
    · rcases writeFile_cases path (.bytes ByteArray.empty) s with ⟨-, hdir, hrun⟩ | ⟨e, hrun⟩
      · rw [run_bind_ok hrun]
        exact onlyAt_insert hpath hdir _
      · rw [run_bind_error hrun]
        exact .refl _ s
  · rw [run_bind_error hreach]
    exact .refl _ s

/-! ## Handlers -/

/-- The handler writes to the console, or to a file at one of the places, which it never rotates. -/
def Handler.Confined (touched : Place → Prop) (h : Handler) : Prop :=
  match h.sink with
  | .console => True
  | .file .never f => touched f.path.place
  | .file _ _ => False

theorem confined_of_console {h : Handler} (hsink : h.sink = .console) (touched : Place → Prop) :
    h.Confined touched := by
  rw [Handler.Confined, hsink]
  trivial

theorem append_onlyAt {f : LogFile} (hf : touched f.path.place) (data : ByteArray) (s : Store) :
    OnlyAt touched s (f.append data s).2 ∧ (f.append data s).1.path = f.path := by
  unfold LogFile.append
  split
  · exact ⟨.refl _ s, rfl⟩
  · dsimp only
    split
    · next place found hlookup =>
        split
        · obtain ⟨hlocate, hfind⟩ := lookup_eq_ok.mp hlookup
          obtain rfl := place_of_locate hlocate
          exact ⟨onlyAt_insert hf (by simp [← hfind]) _, rfl⟩
        · exact ⟨.refl _ s, rfl⟩
    · exact ⟨.refl _ s, rfl⟩

/-- The file of a handler that never rotates is perhaps opened again, and stays where it is. -/
theorem target_onlyAt {f : LogFile} (hf : touched f.path.place) (line : String) (s : Store) :
    OnlyAt touched s ((Handler.target .never f line).run s).2 ∧
      (((Handler.target .never f line).run s).1.toOption.getD f.closed).path = f.path := by
  have htarget : Handler.target .never f line = f.reopened := by
    simp [Handler.target]
  rw [htarget, LogFile.reopened]
  split
  · exact ⟨.refl _ s, rfl⟩
  · refine ⟨atEnd_onlyAt touched hf s, ?_⟩
    rcases hrun : (LogFile.atEnd f.path).run s with ⟨e | f', s'⟩
    · rfl
    · exact path_of_atEnd hrun

theorem Handler.write_confined {h : Handler} (hconfined : h.Confined touched) (line : String)
    (s : Store) :
    (h.write line s).1.Confined touched ∧ OnlyAt touched s (h.write line s).2.1 := by
  unfold Handler.write
  cases hsink : h.sink with
  | console => exact ⟨hconfined, .refl _ s⟩
  | file rotation f =>
      rw [Confined, hsink] at hconfined
      cases rotation with
      | bySize limit backups => exact hconfined.elim
      | byTime => exact hconfined.elim
      -- without rotation a file is written to at its own path only
      | never =>
          obtain ⟨honly, hpath⟩ := target_onlyAt hconfined (line ++ "\n") s
          have htarget : touched
              (((target .never f (line ++ "\n")).run s).1.toOption.getD f.closed).path.place := by
            rw [hpath]
            exact hconfined
          obtain ⟨honly', hpath'⟩ := append_onlyAt htarget (line ++ "\n").toUTF8
            ((target .never f (line ++ "\n")).run s).2
          refine ⟨?_, honly.trans honly'⟩
          rw [← hpath'] at htarget
          exact htarget

theorem writeAll_confined (line : Form → Except LineFault String) {handlers : List Handler}
    (h : ∀ h ∈ handlers, h.Confined touched) (s : Store) :
    (∀ h ∈ (writeAll line s handlers).1, h.Confined touched) ∧
      OnlyAt touched s (writeAll line s handlers).2.1 := by
  induction handlers generalizing s with
  | nil => exact ⟨h, .refl _ s⟩
  | cons first rest ih =>
      obtain ⟨hfirst, hrest⟩ := List.forall_mem_cons.mp h
      unfold writeAll
      cases line first.form with
      | error e =>
          obtain ⟨hall, honly⟩ := ih hrest s
          exact ⟨List.forall_mem_cons.mpr ⟨hfirst, hall⟩, honly⟩
      | ok l =>
          obtain ⟨hwritten, honly⟩ := first.write_confined hfirst l s
          obtain ⟨hall, honly'⟩ := ih hrest (first.write l s).2.1
          exact ⟨List.forall_mem_cons.mpr ⟨hwritten, hall⟩, honly.trans honly'⟩

/-- Logging changes at most the entries that the handlers are confined to. -/
theorem log_confined {j : Journal} (h : ∀ h ∈ j.handlers, h.Confined touched) (process : Nat)
    (r : Record) (s : Store) : OnlyAt touched s (j.log process r s).2.1 := by
  unfold log
  split
  · exact .refl _ s
  · split
    · exact .refl _ s
    · exact (writeAll_confined _ h s).2

/-! ## Setting up -/

/-- The handlers before that of the log file write to the console. -/
theorem console_of_prepared (w : Setup) (terminal : Bool) (level : Level) {j : Journal}
    (hconsole : ∀ h ∈ j.withoutInstalled.handlers, h.sink = .console) :
    ∀ h ∈ (prepared w terminal level j).handlers, h.sink = .console := by
  rw [handlers_prepared]
  intro h hmem
  rcases List.mem_append.mp hmem with hmem | hmem
  · exact hconsole h hmem
  · rw [(consoleHandler?_eq_some.mp (Option.mem_toList.mp hmem)).2]

/-- The place of a log file. -/
def logPlace (file : String) : Place :=
  (Path.ofString file).normalized.place

theorem openFile_confined {file : String} {sink : Sink}
    (h : (openFile file none).run s = (.ok sink, s')) :
    (∃ f, sink = .file .never f ∧ f.path = (Path.ofString file).normalized) ∧
      ∃ s₁, Grows (places (Path.ofString file).parent) s s₁ ∧ OnlyAt (· = logPlace file) s₁ s' := by
  have hgrows := (ensured_ensureDirectory (Path.ofString file).parent s).1
  rw [openFile_known file (by simp), run_bind, run_adapt] at h
  rcases hensure : (ensureDirectory (Path.ofString file).parent).run s with ⟨e | _, s₁⟩
  · rw [hensure] at h
    cases h
  · rw [hensure] at h hgrows
    dsimp only at h
    rw [run_bind, run_adapt] at h
    have honly : OnlyAt (· = logPlace file) s₁
      ((LogFile.atEnd (Path.ofString file).normalized).run s₁).2 :=
      atEnd_onlyAt (· = logPlace file) rfl s₁
    rcases hopen : (LogFile.atEnd (Path.ofString file).normalized).run s₁ with ⟨e | f, s₂⟩
    · rw [hopen] at h
      cases h
    · rw [hopen] at h honly
      cases h
      exact ⟨⟨f, rfl, path_of_atEnd hopen⟩, s₁, hgrows, honly⟩

/-- A journal that was set up without a log file writes to the console only. -/
theorem setUp_console (touched : Place → Prop) {w : Setup} {terminal : Bool} {j j' : Journal}
    (hfile : w.file = none)
    (hconsole : ∀ h ∈ j.withoutInstalled.handlers, h.sink = .console)
    (h : setUp w terminal j s = (.ok (), j', s')) :
    s' = s ∧ ∀ h ∈ j'.handlers, h.Confined touched := by
  have hlog : w.logFile = none := by
    rw [Setup.logFile, hfile]
    rfl
  have houtcome := outcome_setUp w terminal j s
  rw [h] at houtcome
  cases houtcome with
  | @noFile level hlevel _ =>
      refine ⟨rfl, ?_⟩
      rw [handlers_finish]
      exact fun h hmem =>
        confined_of_console (console_of_prepared w terminal level hconsole h hmem) touched
  | file _ hname _ =>
      rw [hlog] at hname
      cases hname

/-- A journal that was set up with a log file is confined to it, if no other handler writes to a
file. Besides this file only directories on the way to it are made. -/
theorem setUp_confined {w : Setup} {terminal : Bool} {j j' : Journal} {file : String}
    (hfile : w.file = some file) (hrotation : w.rotation = none)
    (hconsole : ∀ h ∈ j.withoutInstalled.handlers, h.sink = .console)
    (h : setUp w terminal j s = (.ok (), j', s')) :
    (∀ h ∈ j'.handlers, h.Confined (· = logPlace file)) ∧
      ∃ s₁, Grows (places (Path.ofString file).parent) s s₁ ∧ OnlyAt (· = logPlace file) s₁ s' := by
  have hbefore (level : Level) (h : Handler) (hmem : h ∈ (prepared w terminal level j).handlers) :
      h.Confined (· = logPlace file) :=
    confined_of_console (console_of_prepared w terminal level hconsole h hmem) _
  have houtcome := outcome_setUp w terminal j s
  rw [h] at houtcome
  cases houtcome with
  | noFile =>
      refine ⟨?_, s, .refl _ s, .refl _ s⟩
      rw [handlers_finish]
      exact hbefore _
  | @file level name _ _ _ hname hopen =>
      obtain rfl : file = name := by
        rw [Setup.logFile, hfile] at hname
        exact Option.some_inj.mp (Option.filter_eq_some_iff.mp hname).1
      rw [hrotation] at hopen
      obtain ⟨⟨f, rfl, hpath⟩, hchanges⟩ := openFile_confined hopen
      refine ⟨?_, hchanges⟩
      rw [handlers_finish]
      intro h hmem
      rcases List.mem_append.mp hmem with hmem | hmem
      · exact hbefore level h hmem
      · rw [List.mem_singleton.mp hmem]
        exact congrArg Path.place hpath

end Journal

end LoopPainter
