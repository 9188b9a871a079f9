import LoopPainter.Proofs.Results
import LoopPainter.Yaml.Builder
import Mathlib.Data.List.Forall2
import Mathlib.Data.List.Nodup
import Mathlib.Data.List.Perm.Subperm

/-!
# Building collections

Whatever a document looks like, a collection that has been made waits in the queue, is at work, or
has been filled (`Valid`).  Every step of building keeps this and never takes back a value (`Kept`).
A document has no more collections than nodes, so none waits in the end (`waiting_fillAll`).
-/

namespace LoopPainter.Yaml.Builder

variable {α β : Type} {b b' : Builder} {n m : ℕ} {part : Part} {busy : List ℕ}

/-! ## The queue -/

/-- The collections that have been made are those at work, those that wait and those that are
filled, each in one of these states. -/
structure Valid (busy : List ℕ) (b : Builder) : Prop where
  nodup : (busy ++ b.waiting ++ b.filled.map Prod.fst).Nodup
  mem_iff (n : ℕ) : n ∈ busy ++ b.waiting ++ b.filled.map Prod.fst ↔
    b.made.lookup n = some (.collection n)
  own (n m : ℕ) : b.made.lookup n = some (.collection m) → m = n
  lt (n : ℕ) (part : Part) : b.made.lookup n = some part → n < b.nodes.length

theorem valid_init (nodes : List Node) : Valid [] { nodes := nodes } :=
  ⟨List.nodup_nil, by simp, nofun, nofun⟩

/-- There are no more collections than nodes. -/
theorem Valid.length_le (h : Valid busy b) :
    (busy ++ b.waiting ++ b.filled.map Prod.fst).length ≤ b.nodes.length := by
  rw [← List.length_range (n := b.nodes.length)]
  -- they are different numbers of nodes
  refine (h.nodup.subperm fun n hn => ?_).length_le
  exact List.mem_range.mpr (h.lt n _ ((h.mem_iff n).mp hn))

/-- The next collection is put to work. -/
theorem Valid.start {waiting : List ℕ} (h : Valid [] b) (hwaiting : b.waiting = n :: waiting) :
    Valid [n] { b with waiting := waiting } := by
  have hall := h.mem_iff
  have hnodup := h.nodup
  rw [hwaiting] at hall hnodup
  exact ⟨hnodup, hall, h.own, h.lt⟩

/-- The collection at work is filled. -/
theorem Valid.finish (h : Valid [n] b) (c : Contents) :
    Valid [] { b with filled := (n, c) :: b.filled } := by
  have hperm : (b.waiting ++ n :: b.filled.map Prod.fst).Perm
      ([n] ++ b.waiting ++ b.filled.map Prod.fst) := List.perm_middle
  exact ⟨hperm.nodup_iff.mpr h.nodup, fun m => hperm.mem_iff.trans (h.mem_iff m), h.own, h.lt⟩

/-- A later state of building: what was made stays, and nothing has been filled. -/
structure Kept (b b' : Builder) : Prop where
  length : b'.nodes.length = b.nodes.length
  filled : b'.filled = b.filled
  made (n : ℕ) (part : Part) : b.made.lookup n = some part → b'.made.lookup n = some part
  valid (busy : List ℕ) : Valid busy b → Valid busy b'

theorem Kept.refl (b : Builder) : Kept b b :=
  ⟨rfl, rfl, fun _ _ => id, fun _ => id⟩

theorem Kept.trans {b'' : Builder} (h : Kept b b') (h' : Kept b' b'') : Kept b b'' :=
  ⟨h'.length.trans h.length, h'.filled.trans h.filled,
    fun n part hn => h'.made n part (h.made n part hn),
    fun busy hb => h'.valid busy (h.valid busy hb)⟩

/-- A step that leads to a later state. -/
def Keeps (step : Builds α) : Prop :=
  ∀ b a b', step b = .ok (a, b') → Kept b b'

theorem keeps_pure (a : α) : Keeps (pure a : Builds α) := by
  rintro b _ _ ⟨⟩
  exact .refl b

theorem keeps_throw (f : Fault) : Keeps (throw f : Builds α) := by
  rintro b _ _ ⟨⟩

theorem keeps_get : Keeps (get : Builds Builder) := by
  rintro b _ _ ⟨⟩
  exact .refl b

theorem Keeps.bind {step : Builds α} {next : α → Builds β} (h : Keeps step)
    (hnext : ∀ a, Keeps (next a)) : Keeps (step >>= next) := by
  intro b c b' hrun
  rw [Stateful.bind_eq] at hrun
  cases hstep : step b with
  | error f => rw [hstep] at hrun; cases hrun
  | ok r =>
      rw [hstep] at hrun
      exact (h b r.1 r.2 hstep).trans (hnext r.1 r.2 c b' hrun)

theorem Keeps.mapM {step : α → Builds β} (h : ∀ a, Keeps (step a)) (xs : List α) :
    Keeps (xs.mapM step) := by
  induction xs with
  | nil => exact keeps_pure []
  | cons x xs ih =>
      rw [List.mapM_cons]
      exact (h x).bind fun y => ih.bind fun ys => keeps_pure _

theorem Keeps.forM {step : α → Builds PUnit} (h : ∀ a, Keeps (step a)) (xs : List α) :
    Keeps (xs.forM step) := by
  induction xs with
  | nil => exact keeps_pure _
  | cons x xs ih => exact (h x).bind fun _ => ih

/-! ## Nodes -/

theorem keeps_node (n : ℕ) : Keeps (node n) := by
  refine keeps_get.bind fun b => ?_
  split
  · exact keeps_pure _
  · exact keeps_throw _

theorem keeps_pairsOf (n : ℕ) : Keeps (pairsOf n) := by
  refine (keeps_node n).bind fun v => ?_
  split
  · exact keeps_pure _
  · exact keeps_throw _

theorem keeps_setNode (n : ℕ) (v : Node) : Keeps (setNode n v) := by
  rintro b _ _ ⟨⟩
  have hlength : (b.nodes.set n v).length = b.nodes.length := List.length_set
  refine ⟨hlength, rfl, fun _ _ => id, fun busy h => ⟨h.nodup, h.mem_iff, h.own, ?_⟩⟩
  exact fun m part hm => hlength ▸ h.lt m part hm

theorem keeps_setPairs (n : ℕ) (pairs : List (ℕ × ℕ)) : Keeps (setPairs n pairs) :=
  (keeps_node n).bind fun _ => keeps_setNode _ _

theorem keeps_plainKey (k : ℕ) : Keeps (plainKey k) := by
  refine (keeps_node k).bind fun v => ?_
  split
  · exact keeps_setNode _ _
  · exact keeps_pure _

theorem keeps_flattenFrom (fuel n start : ℕ) (merged : List (ℕ × ℕ)) :
    Keeps (flattenFrom fuel n start merged) := by
  induction fuel generalizing n start merged with
  | zero => exact keeps_throw _
  | succ fuel ih =>
      have hflattened (m : ℕ) : Keeps (flattenFrom fuel m 0 [] >>= fun _ => pairsOf m) :=
        (ih m 0 []).bind fun _ => keeps_pairsOf m
      unfold flattenFrom
      refine (keeps_pairsOf n).bind fun pairs => keeps_get.bind fun b => ?_
      refine (Keeps.forM (fun p : ℕ × ℕ => keeps_plainKey p.1) _).bind fun _ => ?_
      dsimp only
      split
      · split
        · exact keeps_setPairs _ _
        · exact keeps_pure _
      · refine (keeps_setPairs _ _).bind fun _ => (keeps_node _).bind fun v => ?_
        split
        · exact keeps_throw _
        · exact (Keeps.mapM hflattened _).bind fun _ => (keeps_pure _).bind fun _ => ih _ _ _
        · exact (hflattened _).bind fun _ => ih _ _ _

theorem keeps_flatten (n : ℕ) : Keeps (flatten n) :=
  keeps_get.bind fun _ => keeps_flattenFrom _ _ _ _

/-! ## Values -/

/-- A new value is remembered under the number of its node, in front of all others. -/
theorem lookup_cons_of_none (hnone : b.made.lookup n = none) (m : ℕ) (part part' : Part) :
    ((n, part) :: b.made).lookup m = some part' ↔
      (m = n ∧ part = part') ∨ b.made.lookup m = some part' := by
  rw [List.lookup_cons]
  by_cases hm : m = n
  · subst hm
    simp [hnone]
  · simp [hm, beq_eq_false_iff_ne.mpr hm]

/-- A node gets its value, and waits if this is a collection. -/
theorem kept_made (hnone : b.made.lookup n = none) (hn : n < b.nodes.length)
    (hown : ∀ m, part = .collection m → m = n) {new : List ℕ} (hnodup : new.Nodup)
    (hnew : ∀ m, m ∈ new ↔ m = n ∧ part = .collection m) :
    Kept b { b with made := (n, part) :: b.made, waiting := b.waiting ++ new } := by
  have hlookup := lookup_cons_of_none hnone
  refine ⟨rfl, rfl, fun m part' hm => (hlookup m _ _).mpr (.inr hm), fun busy h => ?_⟩
  -- the new member of the queue stands before what is filled, but order does not matter here
  have hperm : (busy ++ (b.waiting ++ new) ++ b.filled.map Prod.fst).Perm
      (new ++ (busy ++ b.waiting ++ b.filled.map Prod.fst)) := by
    rw [← List.append_assoc, List.append_assoc]
    exact (List.perm_append_comm_assoc _ _ _)
  refine ⟨hperm.nodup_iff.mpr (List.nodup_append'.mpr ⟨hnodup, h.nodup, ?_⟩), fun m => ?_,
    fun m k hm => ?_, fun m part' hm => ?_⟩
  · intro m hm hmem
    obtain ⟨rfl, -⟩ := (hnew m).mp hm
    have hmade := (h.mem_iff m).mp hmem
    rw [hnone] at hmade
    cases hmade
  · rw [hperm.mem_iff, List.mem_append, h.mem_iff, hnew, hlookup]
  · rcases (hlookup m _ _).mp hm with ⟨rfl, hpart⟩ | hm
    · exact hown k hpart
    · exact h.own m k hm
  · rcases (hlookup m _ _).mp hm with ⟨rfl, -⟩ | hm
    · exact hn
    · exact h.lt m part' hm

theorem node_eq_ok_iff {v : Node} : node n b = .ok (v, b') ↔ b.nodes[n]? = some v ∧ b = b' := by
  rw [node, Stateful.bind_eq, Stateful.get_eq]
  dsimp only
  cases hv : b.nodes[n]? with
  | none => exact iff_of_false nofun nofun
  | some w => simp

/-- How a value is made. -/
theorem make_cases (h : make n b = .ok (part, b')) :
    n < b.nodes.length ∧
      ((part = .collection n ∧
        b' = { b with made := (n, part) :: b.made, waiting := b.waiting ++ [n] }) ∨
      ∃ d tag, part = .leaf d ∧ scalarDatum b.nodes tag n = .ok d ∧
        b' = { b with made := (n, part) :: b.made }) := by
  rw [make, Stateful.bind_eq, Stateful.get_eq] at h
  dsimp only at h
  rw [Stateful.bind_eq] at h
  cases hnode : node n b with
  | error f => rw [hnode] at h; cases h
  | ok r =>
      obtain ⟨v, b₁⟩ := r
      obtain ⟨hv, rfl⟩ := node_eq_ok_iff.mp hnode
      refine ⟨(List.getElem?_eq_some_iff.mp hv).1, ?_⟩
      rw [hnode] at h
      dsimp only at h
      -- a collection joins the queue, a scalar is read from its text
      split at h
      · cases h
        exact .inl ⟨rfl, rfl⟩
      · cases hd : scalarDatum b.nodes v.tag n with
        | error f => rw [hd] at h; cases h
        | ok d =>
            rw [hd] at h
            cases h
            exact .inr ⟨d, _, rfl, hd, rfl⟩

/-- The value of a node, and that it stays remembered. -/
theorem kept_value (h : value n b = .ok (part, b')) :
    Kept b b' ∧ b'.made.lookup n = some part := by
  rw [value, Stateful.bind_eq, Stateful.get_eq] at h
  dsimp only at h
  cases hlookup : b.made.lookup n with
  | some part' =>
      rw [hlookup] at h
      cases h
      exact ⟨.refl b, hlookup⟩
  | none =>
      rw [hlookup] at h
      obtain ⟨hn, ⟨rfl, rfl⟩ | ⟨d, tag, rfl, -, rfl⟩⟩ := make_cases h
      · exact ⟨kept_made hlookup hn (by simp) (by simp) (by simp), List.lookup_cons_self⟩
      · have hkept : Kept b { b with made := (n, .leaf d) :: b.made, waiting := b.waiting ++ [] } :=
          kept_made hlookup hn (by simp) List.nodup_nil (by simp)
        rw [List.append_nil] at hkept
        exact ⟨hkept, List.lookup_cons_self⟩

theorem keeps_value (n : ℕ) : Keeps (value n) :=
  fun _ _ _ h => (kept_value h).1

theorem keeps_pairValue (p : ℕ × ℕ) : Keeps (pairValue p) := by
  refine (keeps_value p.1).bind fun key => ?_
  split
  · exact (keeps_value p.2).bind fun _ => keeps_pure _
  · exact keeps_throw _

theorem keeps_mappingValues (n : ℕ) : Keeps (mappingValues n) :=
  (keeps_flatten n).bind fun _ => (keeps_pairsOf n).bind fun pairs =>
    .mapM keeps_pairValue pairs

theorem keeps_tupleValue (n : ℕ) : Keeps (tupleValue n) := by
  refine (keeps_pairsOf n).bind fun pairs => ?_
  split
  · exact (keeps_value _).bind fun _ => (keeps_value _).bind fun _ => keeps_pure _
  · exact keeps_throw _

theorem keeps_contents (n : ℕ) : Keeps (contents n) := by
  refine (keeps_node n).bind fun v => ?_
  split
  · exact (Keeps.mapM keeps_value _).bind fun _ => keeps_pure _
  · exact (Keeps.mapM keeps_tupleValue _).bind fun _ => keeps_pure _
  · exact (Keeps.mapM keeps_tupleValue _).bind fun _ => keeps_pure _
  · exact (keeps_mappingValues n).bind fun _ => keeps_pure _
  · exact (keeps_mappingValues n).bind fun _ => keeps_pure _
  · exact keeps_throw _

/-! ## Filling -/

/-- One collection filled: what it holds, and the state in which this is put into it. -/
theorem fillAll_succ {fuel : ℕ} {waiting : List ℕ} (hwaiting : b.waiting = n :: waiting)
    {c : Contents} (h : contents n { b with waiting := waiting } = .ok (c, b')) :
    fillAll (fuel + 1) b = fillAll fuel { b' with filled := (n, c) :: b'.filled } := by
  simp [fillAll, hwaiting, h]

/-- Every collection that waits is filled, and with it all those that it leads to. -/
theorem waiting_fillAll {fuel : ℕ} (hvalid : Valid [] b)
    (hfuel : b.nodes.length ≤ fuel + b.filled.length) (h : fillAll fuel b = .ok ((), b')) :
    b'.waiting = [] ∧ Valid [] b' := by
  have hlength := hvalid.length_le
  simp only [List.nil_append, List.length_append, List.length_map] at hlength
  -- a round takes one collection from the queue and may add others, but all of them together
  -- are no more than the nodes
  induction fuel generalizing b with
  | zero =>
      cases h
      exact ⟨List.length_eq_zero_iff.mp (by omega), hvalid⟩
  | succ fuel ih =>
      cases hwaiting : b.waiting with
      | nil =>
          rw [fillAll, Stateful.bind_eq, Stateful.get_eq] at h
          dsimp only at h
          rw [hwaiting] at h
          cases h
          exact ⟨hwaiting, hvalid⟩
      | cons n waiting =>
          cases hcontents : contents n { b with waiting := waiting } with
          | error f => simp [fillAll, hwaiting, hcontents] at h
          | ok r =>
              obtain ⟨c, b₁⟩ := r
              rw [fillAll_succ hwaiting hcontents] at h
              have hkept := keeps_contents n _ _ _ hcontents
              have hfilled := (hkept.valid _ (hvalid.start hwaiting)).finish c
              have hbound := hfilled.length_le
              refine ih hfilled ?_ h ?_
              · rw [List.length_cons, hkept.length, hkept.filled]
                dsimp only
                omega
              · simpa using hbound

end LoopPainter.Yaml.Builder
