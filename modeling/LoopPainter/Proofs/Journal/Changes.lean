import LoopPainter.Proofs.Journal.Shadowing
import Mathlib.Data.List.Induction
import Mathlib.Logic.Function.Basic

/-!
# Fields after changes

A name is put, removed, or all names are.  What the fields are after a sequence of such changes is
told by the changes alone: a name is there if it was put since it was last removed (`Shown`), its
value is the latest one (`Latest`), and its place among the others is that of the first change that
put it since (`FirstPut`).  So value and place can come from different changes.

`Keeps` says that fields are so.  One more change keeps it (`Keeps.apply`), hence any number do
(`keeps_applyAll`).
-/

namespace LoopPainter.Journal

/-! ## Changes -/

/-- A change of the fields. -/
inductive Change where
  | put (name : String) (value : Datum)
  | remove (name : String)
  | clear

namespace Change

/-- A value is put under the name. -/
def Puts (name : String) : Change → Prop
  | put n _ => n = name
  | remove _ | clear => False

/-- The name is no longer there afterwards. -/
def Removes (name : String) : Change → Prop
  | remove n => n = name
  | clear => True
  | put .. => False

/-- The fields after the change. -/
def apply : Change → Fields → Fields
  | put name value, fields => Fields.put name value fields
  | remove name, fields => Fields.remove name fields
  | clear, _ => []

theorem puts_iff {c : Change} {name : String} : c.Puts name ↔ ∃ value, c = put name value := by
  cases c <;> simp [Puts]

end Change

/-- The fields after changes, none before. -/
def applyAll (history : List Change) : Fields :=
  history.foldl (fun fields c => c.apply fields) []

/-! ## What a history tells -/

variable {history earlier : List Change} {c change : Change} {P : Change → Prop} {name : String}
  {value : Datum} {place : ℕ} {fields : Fields}

/-- The change came right after the earlier ones, and all changes since then are such. -/
def Since (history earlier : List Change) (change : Change) (P : Change → Prop) : Prop :=
  ∃ later, history = earlier ++ change :: later ∧ ∀ c ∈ later, P c

/-- The name was put after it was last removed. -/
def Shown (history : List Change) (name : String) : Prop :=
  ∃ earlier value, Since history earlier (.put name value) fun c => ¬c.Removes name

/-- The value was put under the name, which was neither put nor removed since. -/
def Latest (history : List Change) (name : String) (value : Datum) : Prop :=
  ∃ earlier, Since history earlier (.put name value) fun c => ¬c.Removes name ∧ ¬c.Puts name

/-- The place in the history at which the name was first put after it was last removed. -/
def FirstPut (history : List Change) (name : String) (place : ℕ) : Prop :=
  ∃ earlier value, (Since history earlier (.put name value) fun c => ¬c.Removes name) ∧
    ¬Shown earlier name ∧ earlier.length = place

theorem not_since_nil : ¬Since [] earlier change P := by
  rintro ⟨later, heq, -⟩
  exact List.append_ne_nil_of_right_ne_nil _ (List.cons_ne_nil _ _) heq.symm

/-- The change is the last one, or came before it and the last one is such. -/
theorem since_append_iff : Since (history ++ [c]) earlier change P ↔
    (history = earlier ∧ c = change) ∨ (Since history earlier change P ∧ P c) := by
  constructor
  · rintro ⟨later, heq, hlater⟩
    rcases List.eq_nil_or_concat later with rfl | ⟨later, d, rfl⟩
    · obtain ⟨hhistory, hlast⟩ := List.append_inj' heq rfl
      exact .inl ⟨hhistory, (List.cons.inj hlast).1⟩
    · rw [List.concat_eq_append, ← List.cons_append, ← List.append_assoc] at heq
      obtain ⟨hhistory, hlast⟩ := List.append_inj' heq rfl
      obtain rfl := (List.cons.inj hlast).1
      rw [List.concat_eq_append, List.forall_mem_append] at hlater
      exact .inr ⟨⟨later, hhistory, hlater.1⟩, hlater.2 c (List.mem_singleton_self c)⟩
  · rintro (⟨rfl, rfl⟩ | ⟨⟨later, rfl, hlater⟩, hc⟩)
    · exact ⟨[], rfl, nofun⟩
    · refine ⟨later ++ [c], by simp, ?_⟩
      rw [List.forall_mem_append, List.forall_mem_singleton]
      exact ⟨hlater, hc⟩

theorem not_shown_nil : ¬Shown [] name := by
  rintro ⟨earlier, value, h⟩
  exact not_since_nil h

theorem not_latest_nil : ¬Latest [] name value := by
  rintro ⟨earlier, h⟩
  exact not_since_nil h

theorem shown_append_iff :
    Shown (history ++ [c]) name ↔ c.Puts name ∨ (Shown history name ∧ ¬c.Removes name) := by
  simp only [Shown, since_append_iff, Change.puts_iff]
  constructor
  · rintro ⟨earlier, value, ⟨-, hc⟩ | ⟨h, hc⟩⟩
    · exact .inl ⟨value, hc⟩
    · exact .inr ⟨⟨earlier, value, h⟩, hc⟩
  · rintro (⟨value, hc⟩ | ⟨⟨earlier, value, h⟩, hc⟩)
    · exact ⟨history, value, .inl ⟨rfl, hc⟩⟩
    · exact ⟨earlier, value, .inr ⟨h, hc⟩⟩

theorem latest_append_iff : Latest (history ++ [c]) name value ↔
    c = .put name value ∨ (Latest history name value ∧ ¬c.Removes name ∧ ¬c.Puts name) := by
  simp only [Latest, since_append_iff]
  constructor
  · rintro ⟨earlier, ⟨-, hc⟩ | ⟨h, hc⟩⟩
    · exact .inl hc
    · exact .inr ⟨⟨earlier, h⟩, hc⟩
  · rintro (hc | ⟨⟨earlier, h⟩, hc⟩)
    · exact ⟨history, .inl ⟨rfl, hc⟩⟩
    · exact ⟨earlier, .inr ⟨h, hc⟩⟩

theorem FirstPut.append (h : FirstPut history name place) (hc : ¬c.Removes name) :
    FirstPut (history ++ [c]) name place := by
  obtain ⟨earlier, value, hsince, hnew, hplace⟩ := h
  exact ⟨earlier, value, since_append_iff.mpr (.inr ⟨hsince, hc⟩), hnew, hplace⟩

theorem firstPut_append_put (hnew : ¬Shown history name) (value : Datum) :
    FirstPut (history ++ [.put name value]) name history.length :=
  ⟨history, value, since_append_iff.mpr (.inl ⟨rfl, rfl⟩), hnew, rfl⟩

theorem FirstPut.lt_length (h : FirstPut history name place) : place < history.length := by
  obtain ⟨earlier, value, ⟨later, rfl, -⟩, -, rfl⟩ := h
  rw [List.length_append, List.length_cons]
  omega

/-! ## One change -/

theorem Fields.mem_put_iff (hnodup : fields.names.Nodup) {entry : String × Datum} :
    entry ∈ Fields.put name value fields ↔
      entry = (name, value) ∨ (entry ∈ fields ∧ entry.1 ≠ name) := by
  induction fields with
  | nil => simp [Fields.put]
  | cons first fields ih =>
      obtain ⟨n, v⟩ := first
      obtain ⟨hfirst, hnodup⟩ := List.nodup_cons.mp hnodup
      unfold Fields.put
      split
      · next heq =>
          -- the name is not there again behind its first entry
          subst heq
          have hrest : entry ∈ fields → entry.1 ≠ n := by
            intro hentry heq
            exact hfirst (List.mem_map.mpr ⟨entry, hentry, heq⟩)
          rw [List.mem_cons, List.mem_cons]
          constructor
          · rintro (heq | hentry)
            · exact .inl heq
            · exact .inr ⟨.inr hentry, hrest hentry⟩
          · rintro (heq | ⟨rfl | hentry, hne⟩)
            · exact .inl heq
            · exact absurd rfl hne
            · exact .inr hentry
      · next hne =>
          rw [List.mem_cons, List.mem_cons, ih hnodup]
          constructor
          · rintro (rfl | heq | ⟨hentry, hother⟩)
            · exact .inr ⟨.inl rfl, hne⟩
            · exact .inl heq
            · exact .inr ⟨.inr hentry, hother⟩
          · rintro (heq | ⟨rfl | hentry, hother⟩)
            · exact .inr (.inl heq)
            · exact .inl rfl
            · exact .inr (.inr ⟨hentry, hother⟩)

theorem Fields.mem_remove_iff {entry : String × Datum} :
    entry ∈ Fields.remove name fields ↔ entry ∈ fields ∧ entry.1 ≠ name := by
  rw [Fields.remove, List.mem_filter, decide_eq_true_iff]

theorem Fields.mem_names_put_iff {other : String} :
    other ∈ (Fields.put name value fields).names ↔ other = name ∨ other ∈ fields.names := by
  rw [names_put]
  split
  · next hold =>
      constructor
      · exact .inr
      · rintro (rfl | h)
        · exact hold
        · exact h
  · rw [List.mem_append, List.mem_singleton, or_comm]

/-- The fields are what the history tells. -/
structure Keeps (fields : Fields) (history : List Change) : Prop where
  shown (name : String) : name ∈ fields.names ↔ Shown history name
  latest (name : String) (value : Datum) : (name, value) ∈ fields ↔ Latest history name value
  order : ∃ place : String → ℕ, (∀ name ∈ fields.names, FirstPut history name (place name)) ∧
    fields.names.Pairwise fun name other => place name < place other

namespace Keeps

theorem nodup_names (h : Keeps fields history) : fields.names.Nodup := by
  obtain ⟨place, -, hpairwise⟩ := h.order
  refine hpairwise.imp ?_
  rintro name _ hlt rfl
  exact Nat.lt_irrefl _ hlt

theorem nil : Keeps [] [] where
  shown _ := iff_of_false List.not_mem_nil not_shown_nil
  latest _ _ := iff_of_false List.not_mem_nil not_latest_nil
  order := ⟨fun _ => 0, nofun, List.Pairwise.nil⟩

theorem put (h : Keeps fields history) (name : String) (value : Datum) :
    Keeps (Fields.put name value fields) (history ++ [.put name value]) where
  shown other := by
    rw [Fields.mem_names_put_iff, shown_append_iff, h.shown]
    simp only [Change.Puts, Change.Removes, not_false_eq_true, and_true, eq_comm]
  latest other v := by
    rw [Fields.mem_put_iff h.nodup_names, latest_append_iff, h.latest]
    simp only [Change.Puts, Change.Removes, not_false_eq_true, true_and, Prod.mk.injEq,
      Change.put.injEq, ne_eq, eq_comm]
  order := by
    obtain ⟨place, hplace, hpairwise⟩ := h.order
    rw [Fields.names_put]
    split
    · exact ⟨place, fun other hother => (hplace other hother).append not_false, hpairwise⟩
    · next hnew =>
        -- a new name comes last, and its place is the end of the history
        have hkept : ∀ other ∈ fields.names,
            Function.update place name history.length other = place other := by
          intro other hother
          refine Function.update_of_ne ?_ _ _
          rintro rfl
          exact hnew hother
        refine ⟨Function.update place name history.length, ?_, ?_⟩
        · rw [List.forall_mem_append, List.forall_mem_singleton, Function.update_self]
          refine ⟨fun other hother => ?_, firstPut_append_put (mt (h.shown name).mpr hnew) value⟩
          rw [hkept other hother]
          exact (hplace other hother).append not_false
        · refine List.pairwise_append.mpr ⟨?_, List.pairwise_singleton _ _, ?_⟩
          · refine hpairwise.imp_of_mem fun hfirst hsecond hlt => ?_
            rwa [hkept _ hfirst, hkept _ hsecond]
          · intro other hother last hlast
            obtain rfl := List.mem_singleton.mp hlast
            rw [hkept other hother, Function.update_self]
            exact (hplace other hother).lt_length

theorem remove (h : Keeps fields history) (name : String) :
    Keeps (Fields.remove name fields) (history ++ [.remove name]) where
  shown other := by
    rw [Fields.names_remove, List.mem_filter, decide_eq_true_iff, shown_append_iff, h.shown]
    simp only [Change.Puts, Change.Removes, false_or, ne_eq, eq_comm]
  latest other v := by
    rw [Fields.mem_remove_iff, latest_append_iff, h.latest]
    simp only [Change.Puts, Change.Removes, not_false_eq_true, and_true, reduceCtorEq, false_or,
      ne_eq, eq_comm]
  order := by
    obtain ⟨place, hplace, hpairwise⟩ := h.order
    rw [Fields.names_remove]
    refine ⟨place, fun other hother => ?_, hpairwise.filter _⟩
    obtain ⟨hother, hne⟩ := List.mem_filter.mp hother
    exact (hplace other hother).append fun heq => of_decide_eq_true hne heq.symm

theorem clear (history : List Change) : Keeps [] (history ++ [.clear]) where
  shown other := by
    rw [shown_append_iff]
    simp [Fields.names, Change.Puts, Change.Removes]
  latest other v := by
    rw [latest_append_iff]
    simp [Change.Removes]
  order := ⟨fun _ => 0, nofun, List.Pairwise.nil⟩

/-- One more change keeps the fields what the history tells. -/
theorem apply (h : Keeps fields history) (c : Change) :
    Keeps (c.apply fields) (history ++ [c]) := by
  cases c with
  | put name value => exact h.put name value
  | remove name => exact h.remove name
  | clear => exact clear history

end Keeps

/-! ## All changes -/

theorem keeps_applyAll (history : List Change) : Keeps (applyAll history) history := by
  induction history using List.reverseRecOn with
  | nil => exact .nil
  | append_singleton history c ih =>
      rw [applyAll, List.foldl_append]
      exact ih.apply c

end LoopPainter.Journal
