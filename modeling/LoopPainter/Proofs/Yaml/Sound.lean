import LoopPainter.Proofs.Yaml.Building
import Mathlib.Data.Int.Notation
import Mathlib.Data.List.TakeWhile

/-!
# Building sound documents

A document is sound if it consists of texts, whole numbers, lists, and mappings whose keys are
texts, and if all parts of its collections exist.  Building its value does not fail.  No node
changes on the way, every value is what its node says (`Faithful`), and a collection that has been
filled holds the values of its parts (`Holds`).
-/

namespace LoopPainter.Yaml

open Yaml.Node

variable {v : Node} {d d' : Datum} {text : String} {nodes : List Node} {b b' : Builder} {n : ℕ}
  {part : Part}

/-! ## Sound documents -/

/-- A scalar that stands for a text or a whole number. -/
inductive IsLeaf : Node → Datum → Prop
  | text (s : String) : IsLeaf (.scalar .str s) (.text s)
  | int {s : String} {i : ℤ} (h : readInteger s = .ok i) : IsLeaf (.scalar .int s) (.int i)

/-- A node that is a leaf, a list, or a mapping whose keys are texts, with parts that exist. -/
inductive Sound (nodes : List Node) : Node → Prop
  | leaf {v : Node} {d : Datum} (h : IsLeaf v d) : Sound nodes v
  | sequence {items : List ℕ} (h : ∀ m ∈ items, m < nodes.length) :
      Sound nodes (.sequence .seq items)
  | mapping {pairs : List (ℕ × ℕ)}
      (h : ∀ p ∈ pairs, (∃ key, nodes[p.1]? = some (.scalar .str key)) ∧ p.2 < nodes.length) :
      Sound nodes (.mapping .map pairs)

theorem IsLeaf.unique (h : IsLeaf v d) (h' : IsLeaf v d') : d = d' := by
  cases h with
  | text s => cases h'; rfl
  | int h =>
      cases h' with
      | int h' => rw [Except.ok.inj (h.symm.trans h')]

theorem IsLeaf.isCollection_eq (h : IsLeaf v d) : v.tag.isCollection = false := by
  cases h <;> rfl

/-- A scalar is read from its text. -/
theorem Builder.scalarDatum_scalar {tag : Tag} {read : String → Reads Datum}
    (hn : nodes[n]? = some (.scalar tag text)) (hread : scalarReader? tag = some read) :
    scalarDatum nodes tag n = read text := by
  have htext : taggedText nodes tag n = .ok text := by
    simp [taggedText, scalarText, hn, Node.isScalar, pure, Except.pure, bind, Except.bind]
  rw [scalarDatum, hread]
  dsimp only
  rw [htext]
  rfl

theorem IsLeaf.scalarDatum_eq (h : IsLeaf v d) (hn : nodes[n]? = some v) :
    Builder.scalarDatum nodes v.tag n = .ok d := by
  cases h with
  | text s => exact Builder.scalarDatum_scalar hn rfl
  | int h => exact (Builder.scalarDatum_scalar hn rfl).trans (congrArg (Except.map Datum.int) h)

namespace Builder

/-- The nodes of a sound document, with values that are what the nodes say. -/
structure Faithful (nodes : List Node) (b : Builder) : Prop where
  nodes_eq : b.nodes = nodes
  sound (n : ℕ) (v : Node) : nodes[n]? = some v → Sound nodes v
  made (n : ℕ) (part : Part) : b.made.lookup n = some part → ∃ v, nodes[n]? = some v ∧
    ((part = .collection n ∧ v.tag.isCollection = true) ∨ ∃ d, part = .leaf d ∧ IsLeaf v d)

/-- The value of a node is among those made. -/
def Remembers (made : List (ℕ × Part)) (n : ℕ) (part : Part) : Prop :=
  made.lookup n = some part

/-- A pair has a text for its key, and its value is among those made. -/
def RemembersPair (nodes : List Node) (made : List (ℕ × Part)) (p : ℕ × ℕ) (q : Datum × Part) :
    Prop :=
  ∃ key, nodes[p.1]? = some (.scalar .str key) ∧ q.1 = .text key ∧ Remembers made p.2 q.2

/-- What a collection holds are the values of the parts of its node. -/
inductive Holds (nodes : List Node) (made : List (ℕ × Part)) : Node → Contents → Prop
  | list {items : List ℕ} {parts : List Part} (h : List.Forall₂ (Remembers made) items parts) :
      Holds nodes made (.sequence .seq items) (.list parts)
  | map {pairs : List (ℕ × ℕ)} {parts : List (Datum × Part)}
      (h : List.Forall₂ (RemembersPair nodes made) pairs parts) :
      Holds nodes made (.mapping .map pairs) (.map parts)

theorem RemembersPair.of_kept (hkept : Kept b b') {p : ℕ × ℕ} {q : Datum × Part}
    (h : RemembersPair nodes b.made p q) : RemembersPair nodes b'.made p q := by
  obtain ⟨key, hkey, hq, hvalue⟩ := h
  exact ⟨key, hkey, hq, hkept.made _ _ hvalue⟩

theorem Holds.of_kept (hkept : Kept b b') {c : Contents} (h : Holds nodes b.made v c) :
    Holds nodes b'.made v c := by
  cases h with
  | list h => exact .list (h.imp fun _ _ => hkept.made _ _)
  | map h => exact .map (h.imp fun _ _ h => h.of_kept hkept)

theorem faithful_init (h : ∀ (n : ℕ) v, nodes[n]? = some v → Sound nodes v) :
    Faithful nodes { nodes := nodes } :=
  ⟨rfl, h, nofun⟩

/-- Another queue makes no difference, nor does what has been filled. -/
theorem Faithful.of_made_eq (h : Faithful nodes b) (hnodes : b'.nodes = b.nodes)
    (hmade : b'.made = b.made) : Faithful nodes b' :=
  ⟨hnodes.trans h.nodes_eq, h.sound, hmade ▸ h.made⟩

/-- A value that is what its node says is remembered. -/
theorem Faithful.remember (h : Faithful nodes b) (hv : nodes[n]? = some v)
    (hpart : (part = .collection n ∧ v.tag.isCollection = true) ∨ ∃ d, part = .leaf d ∧ IsLeaf v d)
    (waiting : List ℕ) :
    Faithful nodes { b with made := (n, part) :: b.made, waiting := waiting } := by
  refine ⟨h.nodes_eq, h.sound, fun m part' hm => ?_⟩
  rw [List.lookup_cons] at hm
  split at hm
  · next heq =>
      cases hm
      rw [eq_of_beq heq]
      exact ⟨v, hv, hpart⟩
  · exact h.made m part' hm

theorem node_eq (hv : b.nodes[n]? = some v) : node n b = .ok (v, b) :=
  node_eq_ok_iff.mpr ⟨hv, rfl⟩

theorem make_leaf (hv : b.nodes[n]? = some v) (hleaf : IsLeaf v d) :
    make n b = .ok (.leaf d, { b with made := (n, .leaf d) :: b.made }) := by
  simp [make, node_eq hv, hleaf.isCollection_eq, hleaf.scalarDatum_eq hv]
  rfl

theorem make_collection (hv : b.nodes[n]? = some v) (htag : v.tag.isCollection = true) :
    make n b = .ok (.collection n,
      { b with made := (n, .collection n) :: b.made, waiting := b.waiting ++ [n] }) := by
  simp [make, node_eq hv, htag]

/-- A node of a sound document gets its value. -/
theorem Faithful.value (h : Faithful nodes b) (hn : n < nodes.length) :
    ∃ part b', Builder.value n b = .ok (part, b') ∧ Faithful nodes b' ∧
      Remembers b'.made n part := by
  cases hlookup : b.made.lookup n with
  | some part => exact ⟨part, b, by simp [Builder.value, hlookup], h, hlookup⟩
  | none =>
      have hmake : Builder.value n b = make n b := by simp [Builder.value, hlookup]
      -- a value is made only once; what it is depends on the node alone
      have hv := List.getElem?_eq_getElem hn
      have hv' : b.nodes[n]? = some nodes[n] := h.nodes_eq.symm ▸ hv
      have hcollection (htag : nodes[n].tag.isCollection = true) :
          ∃ part b', make n b = .ok (part, b') ∧ Faithful nodes b' ∧ Remembers b'.made n part :=
        ⟨_, _, make_collection hv' htag, h.remember hv (.inl ⟨rfl, htag⟩) _, List.lookup_cons_self⟩
      rw [hmake]
      generalize hw : nodes[n] = w at hv hv' hcollection
      cases h.sound n w (hw ▸ hv) with
      | leaf hleaf =>
          exact ⟨_, _, make_leaf hv' hleaf, h.remember hv (.inr ⟨_, rfl, hleaf⟩) _,
            List.lookup_cons_self⟩
      | sequence => exact hcollection rfl
      | mapping => exact hcollection rfl

/-- Values are made one after the other, and those made first stay. -/
theorem Faithful.mapM {α β : Type} {step : α → Builds β} {R : List (ℕ × Part) → α → β → Prop}
    {xs : List α} (h : Faithful nodes b) (hkeeps : ∀ x, Keeps (step x))
    (hlater : ∀ b b' x y, Kept b b' → R b.made x y → R b'.made x y)
    (hstep : ∀ x ∈ xs, ∀ b, Faithful nodes b →
      ∃ y b', step x b = .ok (y, b') ∧ Faithful nodes b' ∧ R b'.made x y) :
    ∃ ys b', xs.mapM step b = .ok (ys, b') ∧ Faithful nodes b' ∧
      List.Forall₂ (R b'.made) xs ys := by
  induction xs generalizing b with
  | nil => exact ⟨[], b, rfl, h, .nil⟩
  | cons x xs ih =>
      rw [List.forall_mem_cons] at hstep
      obtain ⟨y, b₁, hy, h₁, hR⟩ := hstep.1 b h
      obtain ⟨ys, b₂, hys, h₂, hRs⟩ := ih h₁ hstep.2
      -- the first value is still remembered when the others have been made
      have hkept := Keeps.mapM hkeeps xs _ _ _ hys
      refine ⟨y :: ys, b₂, ?_, h₂, .cons (hlater _ _ _ _ hkept hR) hRs⟩
      simp [List.mapM_cons, hy, hys]

/-! ## Contents -/

theorem pairsOf_eq {tag : Tag} {pairs : List (ℕ × ℕ)}
    (hv : b.nodes[n]? = some (.mapping tag pairs)) : pairsOf n b = .ok (pairs, b) := by
  simp [pairsOf, node_eq hv]

/-- Keys that are texts stay as they are. -/
theorem forM_plainKey {pairs : List (ℕ × ℕ)}
    (hkeys : ∀ p ∈ pairs, ∃ key, b.nodes[p.1]? = some (.scalar .str key)) :
    forM pairs (fun p => plainKey p.1) b = .ok (⟨⟩, b) := by
  induction pairs with
  | nil => rfl
  | cons p pairs ih =>
      rw [List.forall_mem_cons] at hkeys
      obtain ⟨⟨key, hkey⟩, hrest⟩ := hkeys
      have hplain : plainKey p.1 b = .ok (⟨⟩, b) := by simp [plainKey, node_eq hkey, tag]
      simp [List.forM_cons, hplain, ih hrest]

/-- A mapping whose keys are texts has no merge keys. -/
theorem flatten_eq {tag : Tag} {pairs : List (ℕ × ℕ)} (hv : b.nodes[n]? = some (.mapping tag pairs))
    (hkeys : ∀ p ∈ pairs, ∃ key, b.nodes[p.1]? = some (.scalar .str key)) :
    flatten n b = .ok ((), b) := by
  -- all pairs come before the first merge key, since there is none
  have hown : (pairs.takeWhile fun p => !hasTag b.nodes .merge p.1) = pairs := by
    rw [List.takeWhile_eq_self_iff]
    intro p hp
    obtain ⟨key, hkey⟩ := hkeys p hp
    simp [hasTag, hkey, Node.tag]
  have hplain := forM_plainKey hkeys
  simp [flatten, flattenFrom, pairsOf_eq hv, hown, hplain]

theorem Faithful.pairValue (h : Faithful nodes b) {p : ℕ × ℕ}
    (hp : (∃ key, nodes[p.1]? = some (.scalar .str key)) ∧ p.2 < nodes.length) :
    ∃ q b', Builder.pairValue p b = .ok (q, b') ∧ Faithful nodes b' ∧
      RemembersPair nodes b'.made p q := by
  obtain ⟨⟨key, hkey⟩, hlt⟩ := hp
  obtain ⟨part, b₁, hfirst, h₁, hpart⟩ := h.value (List.getElem?_eq_some_iff.mp hkey).1
  obtain ⟨value, b₂, hsecond, h₂, hvalue⟩ := h₁.value hlt
  obtain ⟨v, hv, hwhat⟩ := h₁.made _ _ hpart
  cases hkey.symm.trans hv
  rcases hwhat with ⟨-, htag⟩ | ⟨d, rfl, hleaf⟩
  · cases htag
  · cases hleaf
    exact ⟨(.text key, value), b₂, by simp [Builder.pairValue, hfirst, hsecond], h₂,
      key, hkey, rfl, hvalue⟩

/-- A collection of a sound document gets what it holds. -/
theorem Faithful.contents (h : Faithful nodes b) (hv : nodes[n]? = some v)
    (htag : v.tag.isCollection = true) :
    ∃ c b', Builder.contents n b = .ok (c, b') ∧ Faithful nodes b' ∧ Holds nodes b'.made v c := by
  have hv' : b.nodes[n]? = some v := h.nodes_eq.symm ▸ hv
  cases h.sound n v hv with
  | leaf hleaf =>
      rw [hleaf.isCollection_eq] at htag
      cases htag
  | sequence hitems =>
      obtain ⟨parts, b', hrun, h', hparts⟩ := h.mapM (R := Remembers) keeps_value
        (fun _ _ _ _ hkept => hkept.made _ _) fun m hm b hb => hb.value (hitems m hm)
      exact ⟨.list parts, b', by simp [Builder.contents, node_eq hv', hrun], h', .list hparts⟩
  | mapping hpairs =>
      obtain ⟨parts, b', hrun, h', hparts⟩ := h.mapM (R := RemembersPair nodes) keeps_pairValue
        (fun _ _ _ _ hkept h => h.of_kept hkept) fun p hp b hb => hb.pairValue (hpairs p hp)
      -- no node changes, for there is nothing to merge
      have hflatten : flatten n b = .ok ((), b) :=
        flatten_eq hv' fun p hp => h.nodes_eq.symm ▸ (hpairs p hp).1
      exact ⟨.map parts, b', by
        simp [Builder.contents, node_eq hv', mappingValues, hflatten, pairsOf_eq hv', hrun], h',
        .map hparts⟩

/-- A collection of a sound document is complete when it has been filled. -/
def Complete (nodes : List Node) (b : Builder) : Prop :=
  ∀ n c, b.filled.lookup n = some c → ∃ v, nodes[n]? = some v ∧ Holds nodes b.made v c

/-- All collections of a sound document are filled, and are complete then. -/
theorem Faithful.fillAll (h : Faithful nodes b) (hvalid : Valid [] b) (hcomplete : Complete nodes b)
    (fuel : ℕ) : ∃ b', Builder.fillAll fuel b = .ok ((), b') ∧ Faithful nodes b' ∧
      Complete nodes b' ∧ ∀ n part, Remembers b.made n part → Remembers b'.made n part := by
  induction fuel generalizing b with
  | zero => exact ⟨b, rfl, h, hcomplete, fun _ _ => id⟩
  | succ fuel ih =>
      cases hwaiting : b.waiting with
      | nil => exact ⟨b, by simp [Builder.fillAll, hwaiting], h, hcomplete, fun _ _ => id⟩
      | cons n waiting =>
          -- what waits has been made, and is a collection
          have hmade := (hvalid.mem_iff n).mp (by simp [hwaiting])
          obtain ⟨v, hv, ⟨-, htag⟩ | ⟨d, hd, -⟩⟩ := h.made n _ hmade
          · have hstart : Faithful nodes { b with waiting := waiting } := h.of_made_eq rfl rfl
            obtain ⟨c, b₁, hrun, h₁, hholds⟩ := hstart.contents hv htag
            have hkept := keeps_contents n _ _ _ hrun
            let b₂ : Builder := { b₁ with filled := (n, c) :: b₁.filled }
            -- the new contents were made of values just made, and the others are still there
            have hcomplete₂ : Complete nodes b₂ := by
              intro m c' hm
              have hfilled : b₂.filled = (n, c) :: b.filled := by rw [← hkept.filled]
              rw [hfilled, List.lookup_cons] at hm
              split at hm
              · next heq =>
                  cases hm
                  exact ⟨v, eq_of_beq heq ▸ hv, hholds⟩
              · obtain ⟨w, hw, hholds'⟩ := hcomplete m c' hm
                exact ⟨w, hw, hholds'.of_kept hkept⟩
            obtain ⟨b', hrest, h', hcomplete', hstay⟩ :=
              ih (h₁.of_made_eq rfl rfl : Faithful nodes b₂)
                ((hkept.valid _ (hvalid.start hwaiting)).finish c) hcomplete₂
            exact ⟨b', (fillAll_succ hwaiting hrun).trans hrest, h', hcomplete',
              fun m part hm => hstay m part (hkept.made m part hm)⟩
          · cases hd

/-- A document has been built: all its collections are filled, and are complete. -/
structure Built (nodes : List Node) (b : Builder) : Prop where
  faithful : Faithful nodes b
  complete : Complete nodes b
  filled (n : ℕ) : Remembers b.made n (.collection n) → ∃ c, b.filled.lookup n = some c

/-- What is known of a collection of a document that has been built. -/
theorem Built.contents (h : Built nodes b) (hv : nodes[n]? = some v)
    (htag : v.tag.isCollection = true) (hpart : Remembers b.made n part) :
    part = .collection n ∧ ∃ c, b.filled.lookup n = some c ∧ Holds nodes b.made v c := by
  obtain ⟨w, hw, hwhat⟩ := h.faithful.made _ _ hpart
  cases hv.symm.trans hw
  rcases hwhat with ⟨rfl, -⟩ | ⟨d, -, hleaf⟩
  · obtain ⟨c, hc⟩ := h.filled n hpart
    obtain ⟨w, hw, hholds⟩ := h.complete n c hc
    cases hv.symm.trans hw
    exact ⟨rfl, c, hc, hholds⟩
  · rw [hleaf.isCollection_eq] at htag
    cases htag

/-- A sound document can be built. -/
theorem exists_built (root : ℕ) (hsound : ∀ (n : ℕ) v, nodes[n]? = some v → Sound nodes v)
    (hroot : root < nodes.length) :
    ∃ part b, Graph.datum ⟨nodes, root⟩ = .ok (b.datum part) ∧ Built nodes b ∧
      Remembers b.made root part := by
  obtain ⟨part, b₁, hvalue, h₁, hpart⟩ := (faithful_init hsound).value hroot
  have hkept := keeps_value root _ _ _ hvalue
  have hcomplete : Complete nodes b₁ := by
    intro n c hc
    rw [hkept.filled] at hc
    cases hc
  have hvalid := hkept.valid _ (valid_init nodes)
  obtain ⟨b₂, hfill, h₂, hcomplete₂, hstay⟩ := h₁.fillAll hvalid hcomplete nodes.length
  have hfuel : b₁.nodes.length ≤ nodes.length + b₁.filled.length := by
    rw [h₁.nodes_eq]
    exact Nat.le_add_right _ _
  -- nothing waits any more, so whatever was made has been filled
  obtain ⟨hwaiting, hvalid₂⟩ := waiting_fillAll hvalid hfuel hfill
  refine ⟨part, b₂, ?_, ⟨h₂, hcomplete₂, fun n hn => ?_⟩, hstay _ _ hpart⟩
  · simp [Graph.datum, hvalue, hfill]
  · have hmem := (hvalid₂.mem_iff n).mpr hn
    rw [hwaiting, List.append_nil, List.nil_append, List.mem_map] at hmem
    obtain ⟨⟨m, c⟩, hmem, rfl⟩ := hmem
    exact Option.isSome_iff_exists.mp
      (List.lookup_isSome_iff.mpr ⟨(m, c), hmem, beq_self_eq_true m⟩)

end Builder

end LoopPainter.Yaml
