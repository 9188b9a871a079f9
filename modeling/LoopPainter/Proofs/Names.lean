import LoopPainter.Job.Reader
import Mathlib.Data.List.Nodup

/-!
# The names of a mapping

The names of a mapping are those of its keys that are texts.  There is a value under a text exactly
if it is a name (`mem_names_iff`).  A key that is put keeps its place or comes last, so the names of
a mapping stay apart (`nodup_names_putPair`).
-/

namespace LoopPainter

namespace Datum

variable {key name : String} {d v : Datum} {pairs : List (Datum × Datum)}

/-- The text of a key that is one. -/
def name? : Datum → Option String
  | text s => some s
  | _ => none

/-- The keys of a mapping that are texts, in their order. -/
def names (pairs : List (Datum × Datum)) : List String :=
  pairs.filterMap fun e => e.1.name?

theorem name?_eq_some_iff : d.name? = some name ↔ d = text name := by
  cases d <;> simp [name?]

theorem text_sameKey : (text key).sameKey d = true ↔ d = text key := by
  cases d with
  | text s =>
      simp only [sameKey, keyInteger?, beq_iff_eq, text.injEq]
      exact eq_comm
  | float x =>
      simp only [sameKey, keyInteger?]
      cases x.toInt? <;> simp
  | _ => simp [sameKey, keyInteger?]

@[simp] theorem names_cons_text (key : String) (v : Datum) (pairs : List (Datum × Datum)) :
    names ((text key, v) :: pairs) = key :: names pairs := rfl

theorem names_cons_of_name?_eq_none (h : d.name? = none) (v : Datum)
    (pairs : List (Datum × Datum)) : names ((d, v) :: pairs) = names pairs := by
  rw [names, List.filterMap_cons, h]
  rfl

/-- There is a value under a text exactly if it is a name. -/
theorem mem_names_iff : key ∈ names pairs ↔ ∃ d, get? key pairs = some d := by
  induction pairs with
  | nil => simp [names, get?]
  | cons entry pairs ih =>
      obtain ⟨k, v⟩ := entry
      by_cases hk : k = text key
      · subst hk
        simp [get?, sameKey_text]
      · have hget : get? key ((k, v) :: pairs) = get? key pairs := by
          rw [get?, if_neg (by rwa [sameKey_text])]
        rw [hget, ← ih, names, List.filterMap_cons]
        cases hname : k.name? with
        | none => rfl
        | some name =>
            obtain rfl := name?_eq_some_iff.mp hname
            have hne : key ≠ name := fun heq => hk (congrArg text heq.symm)
            simp [names, hne]

theorem get?_eq_none_iff : get? key pairs = none ↔ key ∉ names pairs := by
  rw [mem_names_iff, not_exists, Option.eq_none_iff_forall_ne_some]

/-- A text that is put keeps its place or comes last. -/
theorem names_putPair_text (key : String) (v : Datum) (pairs : List (Datum × Datum)) :
    names (putPair (text key) v pairs) =
      if key ∈ names pairs then names pairs else names pairs ++ [key] := by
  induction pairs with
  | nil => rfl
  | cons entry pairs ih =>
      obtain ⟨k, w⟩ := entry
      rw [putPair]
      by_cases hk : k = text key
      · subst hk
        simp [sameKey_text]
      · rw [if_neg (by rwa [sameKey_text])]
        cases hname : k.name? with
        | none =>
            rw [names_cons_of_name?_eq_none hname, names_cons_of_name?_eq_none hname, ih]
        | some name =>
            obtain rfl := name?_eq_some_iff.mp hname
            have hne : key ≠ name := fun heq => hk (congrArg text heq.symm)
            rw [names_cons_text, names_cons_text, ih]
            split <;> simp_all

/-- A key that is no text has no part in the names. -/
theorem names_putPair_of_name?_eq_none (h : d.name? = none) (v : Datum)
    (pairs : List (Datum × Datum)) : names (putPair d v pairs) = names pairs := by
  induction pairs with
  | nil => rw [putPair, names_cons_of_name?_eq_none h]
  | cons entry pairs ih =>
      obtain ⟨k, w⟩ := entry
      rw [putPair]
      cases hname : k.name? with
      | none =>
          split <;> simp only [names_cons_of_name?_eq_none hname, ih]
      | some name =>
          obtain rfl := name?_eq_some_iff.mp hname
          have hne : ¬ (text name).sameKey d = true := by
            rw [text_sameKey]
            rintro rfl
            cases h
          rw [if_neg hne, names_cons_text, names_cons_text, ih]

theorem nodup_names_putPair (h : (names pairs).Nodup) (k v : Datum) :
    (names (putPair k v pairs)).Nodup := by
  cases hname : k.name? with
  | none => rwa [names_putPair_of_name?_eq_none hname]
  | some name =>
      obtain rfl := name?_eq_some_iff.mp hname
      rw [names_putPair_text]
      split
      · exact h
      · next hnew =>
          rw [← List.concat_eq_append]
          exact h.concat hnew

end Datum

namespace Job

theorem all_isNamed_putPair (key : String) (d : Datum) (pairs : List (Datum × Datum)) :
    (Datum.putPair (.text key) d pairs).all isNamed = pairs.all isNamed := by
  induction pairs with
  | nil => rfl
  | cons entry rest ih =>
      obtain ⟨k, v⟩ := entry
      unfold Datum.putPair
      split
      · rw [List.all_cons, List.all_cons]
        cases k <;> rfl
      · rw [List.all_cons, List.all_cons, ih]

end Job

end LoopPainter
