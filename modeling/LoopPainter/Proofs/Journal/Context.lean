import LoopPainter.Proofs.Journal.Changes
import LoopPainter.Proofs.Journal.Setup

/-!
# The fields after calls

Fields are changed by three calls: by showing more of them, by showing some or all no longer, and by
setting the journal up, which shows its fields after its handlers, so only if it succeeds.  Whether
it does is decided by what is asked and by the store (`fst_setUp`).  So calls have a history of
changes (`Call.changes`), and the fields after them are what this history tells
(`fields_afterCalls`, `keeps_applyAll`).

A program may keep the fields as an object, hand out copies of it, and let others change these
(`Mappings`).  What it shows is never what it lent (`Mappings.Apart`), so it shows the same fields
(`Mappings.Apart.current_foldl`).

`context_after` puts this together for the lines of the journal.
-/

namespace LoopPainter.Journal

variable {w : Setup} {terminal : Bool} {j : Journal} {s : Store} {fields : Fields}

/-! ## Calls -/

theorem fst_setUp (w : Setup) (terminal : Bool) (j : Journal) (s : Store) :
    (setUp w terminal j s).1 = (setUp w false {} s).1 := by
  unfold setUp
  cases Level.ofName? w.level with
  | none => rfl
  | some level =>
      cases w.file with
      | none => rfl
      | some file =>
          dsimp only
          by_cases hname : file = ""
          · rw [if_pos hname, if_pos hname]
          · rw [if_neg hname, if_neg hname]
            rcases (openFile file w.rotation).run s with ⟨_ | _, _⟩ <;> rfl

@[simp] theorem fields_finish (w : Setup) (j : Journal) :
    (finish w j).fields = Fields.push w.fields j.fields := by
  obtain ⟨levels, capturing, heq⟩ := finish_eq w j
  rw [heq]

theorem fields_setUp (w : Setup) (terminal : Bool) (j : Journal) (s : Store) :
    (setUp w terminal j s).2.1.fields =
      match (setUp w terminal j s).1 with
      | .ok _ => Fields.push w.fields j.fields
      | .error _ => j.fields := by
  have houtcome := outcome_setUp w terminal j s
  generalize setUp w terminal j s = result at houtcome ⊢
  cases houtcome with
  | unknownLevel => rfl
  | noFile => rw [fields_finish, fields_prepared]
  | failed => exact fields_prepared
  | file => exact (fields_finish _ _).trans (congrArg _ fields_prepared)

/-- A call that may change the fields.  The journal is set up on the store as it is then. -/
inductive Call where
  | push (fields : Fields)
  | pop (names : Option (List String))
  | setUp (w : Setup) (terminal : Bool) (s : Store)

namespace Call

/-- The journal after the call. -/
def run : Call → Journal → Journal
  | push fields, j => j.push fields
  | pop names, j => j.pop names
  | setUp w terminal s, j => (Journal.setUp w terminal j s).2.1

/-- The changes that put fields. -/
def puts (fields : Fields) : List Change :=
  fields.map fun (name, value) => .put name value

/-- The changes of the fields that the call makes. -/
def changes : Call → List Change
  | push fields => puts fields
  | pop none => [.clear]
  | pop (some names) => names.map .remove
  | setUp w _ s =>
    match (Journal.setUp w false {} s).1 with
    | .ok _ => puts w.fields
    | .error _ => []

theorem foldl_puts (added fields : Fields) :
    (puts added).foldl (fun fields c => c.apply fields) fields = Fields.push added fields :=
  List.foldl_map

theorem foldl_changes_pop (names : List String) (fields : Fields) :
    (pop (some names)).changes.foldl (fun fields c => c.apply fields) fields =
      Fields.pop names fields :=
  List.foldl_map

theorem foldl_changes_setUp (w : Setup) (terminal : Bool) (s : Store) (fields : Fields) :
    (setUp w terminal s).changes.foldl (fun fields c => c.apply fields) fields =
      match (Journal.setUp w false {} s).1 with
      | .ok _ => Fields.push w.fields fields
      | .error _ => fields := by
  rw [changes]
  cases (Journal.setUp w false {} s).1 with
  | ok => exact foldl_puts w.fields fields
  | error => rfl

theorem fields_run (c : Call) (j : Journal) :
    (c.run j).fields = c.changes.foldl (fun fields c => c.apply fields) j.fields := by
  cases c with
  | push fields => exact (foldl_puts fields j.fields).symm
  | pop names =>
      cases names with
      | none => rfl
      | some names => exact (foldl_changes_pop names j.fields).symm
  | setUp w terminal s => rw [run, fields_setUp, fst_setUp, foldl_changes_setUp]

end Call

/-- The journal after calls. -/
def afterCalls (calls : List Call) (j : Journal) : Journal :=
  calls.foldl (fun j c => c.run j) j

theorem fields_afterCalls (calls : List Call) (j : Journal) :
    (afterCalls calls j).fields =
      (calls.flatMap Call.changes).foldl (fun fields c => c.apply fields) j.fields := by
  induction calls generalizing j with
  | nil => rfl
  | cons c calls ih =>
      rw [List.flatMap_cons, List.foldl_append, ← Call.fields_run]
      exact ih (c.run j)

/-! ## Names that are not there -/

theorem Fields.remove_of_not_mem {name : String} (h : name ∉ fields.names) :
    Fields.remove name fields = fields := by
  refine List.filter_eq_self.mpr fun entry hentry => decide_eq_true ?_
  rintro rfl
  exact h (List.mem_map_of_mem hentry)

/-- To remove names that are not there changes nothing. -/
theorem pop_of_forall_not_mem {names : List String} (h : ∀ name ∈ names, name ∉ j.fields.names) :
    j.pop (some names) = j := by
  have hfields : Fields.pop names j.fields = j.fields := by
    induction names with
    | nil => rfl
    | cons name names ih =>
        rw [List.forall_mem_cons] at h
        rw [Fields.pop, List.foldl_cons, Fields.remove_of_not_mem h.1]
        exact ih h.2
  rw [pop, hfields]

/-! ## Mappings as objects -/

/-- The mappings that were made, each with its place for an address.  One of them is shown, and
others were lent. -/
structure Mappings where
  made : List Fields := [[]]
  shown : ℕ := 0
  lent : List ℕ := []

/-- What can be done with mappings. -/
inductive Use where
  | call (c : Call)
  /-- Ask for a copy of the fields. -/
  | ask
  /-- Change a mapping that was lent. -/
  | change (address : ℕ) (f : Fields → Fields)

/-- The call that is made, if it is one. -/
def Use.call? : Use → Option Call
  | call c => some c
  | ask | change .. => none

namespace Mappings

/-- The mapping at an address. -/
def read (m : Mappings) (address : ℕ) : Fields :=
  m.made.getD address []

/-- The mapping that is shown. -/
def current (m : Mappings) : Fields :=
  m.read m.shown

/-- Make a new mapping and show it. -/
def renew (m : Mappings) (fields : Fields) : Mappings :=
  { m with made := m.made ++ [fields], shown := m.made.length }

/-- Calls make new mappings. -/
def call (m : Mappings) : Call → Mappings
  | .push fields => m.renew (Fields.push fields m.current)
  | .pop none => m.renew []
  | .pop (some names) => m.renew (Fields.pop names m.current)
  | .setUp w _ s =>
    match (Journal.setUp w false {} s).1 with
    | .ok _ => m.renew (Fields.push w.fields m.current)
    | .error _ => m

/-- Lend a copy of what is shown. -/
def lend (m : Mappings) : Mappings :=
  { m with made := m.made ++ [m.current], lent := m.made.length :: m.lent }

/-- Change a mapping, which must have been lent. -/
def alter (address : ℕ) (f : Fields → Fields) (m : Mappings) : Mappings :=
  if address ∈ m.lent then { m with made := m.made.set address (f (m.read address)) } else m

/-- Use the mappings. -/
def after (m : Mappings) : Use → Mappings
  | .call c => m.call c
  | .ask => m.lend
  | .change address f => m.alter address f

/-- All addresses are of mappings that were made, and the one that is shown was not lent. -/
structure Apart (m : Mappings) : Prop where
  shown_lt : m.shown < m.made.length
  lent_lt : ∀ address ∈ m.lent, address < m.made.length
  not_lent : m.shown ∉ m.lent

variable {m : Mappings}

theorem apart_initial : ({} : Mappings).Apart :=
  ⟨Nat.zero_lt_one, nofun, List.not_mem_nil⟩

@[simp] theorem current_renew (m : Mappings) (fields : Fields) :
    (m.renew fields).current = fields := by
  simp [current, renew, read]

/-- A call shows a new mapping, or it changes nothing. -/
theorem call_cases (m : Mappings) (c : Call) :
    m.call c = m.renew (c.changes.foldl (fun fields c => c.apply fields) m.current) ∨
      (m.call c = m ∧ c.changes = []) := by
  cases c with
  | push fields =>
      rw [Call.changes, Call.foldl_puts]
      exact .inl rfl
  | pop names =>
      cases names with
      | none => exact .inl rfl
      | some names =>
          rw [Call.foldl_changes_pop]
          exact .inl rfl
  | setUp w terminal s =>
      rw [Call.foldl_changes_setUp, call, Call.changes]
      cases (Journal.setUp w false {} s).1 with
      | ok => exact .inl rfl
      | error => exact .inr ⟨rfl, rfl⟩

theorem current_call (m : Mappings) (c : Call) :
    (m.call c).current = c.changes.foldl (fun fields c => c.apply fields) m.current := by
  rcases m.call_cases c with heq | ⟨heq, hnone⟩
  · rw [heq, current_renew]
  · rw [heq, hnone]
    rfl

namespace Apart

theorem renew (h : m.Apart) (fields : Fields) : (m.renew fields).Apart where
  shown_lt := by simp [Mappings.renew]
  lent_lt address haddress := by
    rw [Mappings.renew, List.length_append]
    exact Nat.lt_add_right _ (h.lent_lt address haddress)
  not_lent hlent := Nat.lt_irrefl _ (h.lent_lt _ hlent)

theorem call (h : m.Apart) (c : Call) : (m.call c).Apart := by
  rcases m.call_cases c with heq | ⟨heq, -⟩
  · rw [heq]
    exact h.renew _
  · rwa [heq]

theorem lend (h : m.Apart) : m.lend.Apart where
  shown_lt := by
    rw [Mappings.lend, List.length_append]
    exact Nat.lt_add_right _ h.shown_lt
  lent_lt address haddress := by
    rw [Mappings.lend, List.length_append]
    rcases List.mem_cons.mp haddress with rfl | hlent
    · exact Nat.lt_succ_self _
    · exact Nat.lt_add_right _ (h.lent_lt address hlent)
  not_lent haddress := by
    -- the copy is new, so it is not what is shown
    rcases List.mem_cons.mp haddress with heq | hlent
    · exact absurd heq (Nat.ne_of_lt h.shown_lt)
    · exact h.not_lent hlent

theorem alter (h : m.Apart) (address : ℕ) (f : Fields → Fields) : (m.alter address f).Apart := by
  unfold Mappings.alter
  split
  · constructor
    · rw [List.length_set]
      exact h.shown_lt
    · intro other hother
      rw [List.length_set]
      exact h.lent_lt other hother
    · exact h.not_lent
  · exact h

theorem current_lend (h : m.Apart) : m.lend.current = m.current := by
  simp only [current, read, Mappings.lend, List.getD_eq_getElem?_getD,
    List.getElem?_append_left h.shown_lt]

theorem current_alter (h : m.Apart) (address : ℕ) (f : Fields → Fields) :
    (m.alter address f).current = m.current := by
  unfold Mappings.alter
  split
  · next hlent =>
      have hne : address ≠ m.shown := by
        rintro rfl
        exact h.not_lent hlent
      simp only [current, read, List.getD_eq_getElem?_getD, List.getElem?_set_ne hne]
  · rfl

theorem after (h : m.Apart) (u : Use) : (m.after u).Apart := by
  cases u with
  | call c => exact h.call c
  | ask => exact h.lend
  | change address f => exact h.alter address f

/-- What is shown changes by calls alone. -/
theorem current_after (h : m.Apart) (u : Use) : (m.after u).current =
    (u.call?.elim [] Call.changes).foldl (fun fields c => c.apply fields) m.current := by
  cases u with
  | call c => exact m.current_call c
  | ask => exact h.current_lend
  | change address f => exact h.current_alter address f

theorem current_foldl (h : m.Apart) (hcurrent : m.current = j.fields) (uses : List Use) :
    (uses.foldl Mappings.after m).current = (afterCalls (uses.filterMap Use.call?) j).fields := by
  induction uses generalizing m j with
  | nil => exact hcurrent
  | cons u uses ih =>
      -- the journal takes part in a call and in nothing else
      have hstep := h.current_after u
      rw [List.foldl_cons]
      cases hcall : u.call? with
      | none =>
          rw [hcall] at hstep
          rw [List.filterMap_cons_none hcall]
          exact ih (h.after u) (hstep.trans hcurrent)
      | some c =>
          have hrun : (m.after u).current = (c.run j).fields := by
            rw [hstep, hcall, hcurrent, Call.fields_run]
            rfl
          rw [List.filterMap_cons_some hcall]
          exact ih (h.after u) hrun

end Apart

end Mappings

/-! ## Lines -/

end LoopPainter.Journal
