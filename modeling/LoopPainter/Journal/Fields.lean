import LoopPainter.Datum

/-!
# Context fields

The fields that every line of the log shows.  They keep the order in which their names were
first put; a later value for a name takes the place of the earlier one.
-/

namespace LoopPainter.Journal

/-- Named values in order. -/
abbrev Fields : Type :=
  List (String × Datum)

namespace Fields

/-- Put a value under a name. -/
def put (name : String) (value : Datum) : Fields → Fields
  | [] => [(name, value)]
  | (n, v) :: rest => if n = name then (name, value) :: rest else (n, v) :: put name value rest

/-- Put several values, in order. -/
def push (added fields : Fields) : Fields :=
  added.foldl (fun fields entry => put entry.1 entry.2 fields) fields

/-- Remove a name. -/
def remove (name : String) (fields : Fields) : Fields :=
  fields.filter fun entry => entry.1 ≠ name

/-- Remove several names. -/
def pop (names : List String) (fields : Fields) : Fields :=
  names.foldl (fun fields name => remove name fields) fields

/-- The value under a name. -/
def get? (name : String) (fields : Fields) : Option Datum :=
  fields.lookup name

/-- The names in order. -/
def names (fields : Fields) : List String :=
  fields.map (·.1)

@[simp] theorem names_put (name : String) (value : Datum) (fields : Fields) :
    (put name value fields).names =
      if name ∈ fields.names then fields.names else fields.names ++ [name] := by
  induction fields with
  | nil => simp [put, names]
  | cons entry rest ih =>
    obtain ⟨n, v⟩ := entry
    unfold put
    by_cases h : n = name
    · simp [names, h]
    · have h' : name ≠ n := fun e => h e.symm
      simp only [names] at ih
      simp only [if_neg h, names, List.map_cons, ih, List.mem_cons, h', false_or]
      split <;> simp_all

@[simp] theorem get?_put (name other : String) (value : Datum) (fields : Fields) :
    (put name value fields).get? other =
      if other = name then some value else fields.get? other := by
  induction fields with
  | nil => grind [put, get?]
  | cons entry rest ih => grind [put, get?]

@[simp] theorem get?_remove (name other : String) (fields : Fields) :
    (remove name fields).get? other = if other = name then none else fields.get? other := by
  induction fields with
  | nil => simp [remove, get?]
  | cons entry rest ih => grind [remove, get?]

@[simp] theorem names_remove (name : String) (fields : Fields) :
    (remove name fields).names = fields.names.filter (· ≠ name) := by
  simp [remove, names, List.filter_map, Function.comp_def]

end Fields

end LoopPainter.Journal
