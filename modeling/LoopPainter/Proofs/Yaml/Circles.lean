import LoopPainter.Proofs.Yaml.Building
import Mathlib.Data.List.TakeWhile

/-!
# Documents that lead back to themselves

The nodes of a document may name each other in circles, and three recursions of building follow them
with some fuel.  It is always enough.

* A merge key is taken away before the mappings that it names are worked out, and what it stands for
  has no merge keys any more.  So there are fewer of them with every one that is worked out
  (`flatten_ends`).
* A mapping that is no default of itself leads through different nodes only (`scalarText_tooDeep`).
* A datum does not open a collection inside itself (`partDatum_succ`).
-/

namespace LoopPainter.Yaml

namespace Builder

variable {α β : Type} {b b' : Builder} {nodes nodes' : List Node} {v v' : Node} {n k fuel : ℕ}

/-- A key is a merge key. -/
def isMerge (nodes : List Node) (p : ℕ × ℕ) : Bool :=
  hasTag nodes .merge p.1

/-- There is no merge key among some pairs. -/
def Unmerged (nodes : List Node) (pairs : List (ℕ × ℕ)) : Prop :=
  ∀ p ∈ pairs, isMerge nodes p = false

/-- There is no merge key among the first pairs of a node. -/
def Free (nodes : List Node) (n k : ℕ) : Prop :=
  ∀ v, nodes[n]? = some v → Unmerged nodes (v.pairs.take k)

theorem unmerged_nil (nodes : List Node) : Unmerged nodes [] :=
  List.forall_mem_nil _

/-- Merge keys may have been taken away, but there are no new ones. -/
structure Settles (nodes nodes' : List Node) : Prop where
  isMerge_eq : isMerge nodes' = isMerge nodes
  mergeKeys_le : mergeKeys nodes' ≤ mergeKeys nodes
  free (n k : ℕ) : Free nodes n k → Free nodes' n k

theorem Settles.refl (nodes : List Node) : Settles nodes nodes :=
  ⟨rfl, Nat.le_refl _, fun _ _ => id⟩

theorem Settles.trans {nodes'' : List Node} (h : Settles nodes nodes')
    (h' : Settles nodes' nodes'') : Settles nodes nodes'' :=
  ⟨h'.isMerge_eq.trans h.isMerge_eq, Nat.le_trans h'.mergeKeys_le h.mergeKeys_le,
    fun n k hn => h'.free n k (h.free n k hn)⟩

theorem Settles.unmerged (h : Settles nodes nodes') {pairs : List (ℕ × ℕ)} :
    Unmerged nodes' pairs ↔ Unmerged nodes pairs := by
  rw [Unmerged, Unmerged, h.isMerge_eq]

/-! ## Changing a node -/

/-- Another node in the place of one of the same kind, with other pairs. -/
theorem isMerge_set (hv : nodes[n]? = some v) (htag : v'.tag = .merge ↔ v.tag = .merge) :
    isMerge (nodes.set n v') = isMerge nodes := by
  funext p
  rw [isMerge, isMerge, hasTag, hasTag, List.getElem?_set]
  split
  · next heq =>
      subst heq
      have hlt := (List.getElem?_eq_some_iff.mp hv).1
      rw [if_pos hlt, hv, Bool.eq_iff_iff]
      simpa using htag
  · rfl

theorem mergeKeys_set (hv : nodes[n]? = some v) (htag : v'.tag = .merge ↔ v.tag = .merge) :
    mergeKeys (nodes.set n v') + v.pairs.countP (isMerge nodes) =
      mergeKeys nodes + v'.pairs.countP (isMerge nodes) := by
  obtain ⟨hlt, rfl⟩ := List.getElem?_eq_some_iff.mp hv
  have hset : mergeKeys (nodes.set n v') =
      ((nodes.set n v').flatMap Node.pairs).countP (isMerge nodes) := by
    rw [← isMerge_set hv htag]
    rfl
  have hsplit : nodes = nodes.take n ++ nodes[n] :: nodes.drop (n + 1) := by simp
  have hall : mergeKeys nodes =
      ((nodes.take n ++ nodes[n] :: nodes.drop (n + 1)).flatMap Node.pairs).countP
        (isMerge nodes) := by
    rw [← hsplit]
    rfl
  rw [hset, hall, List.set_eq_take_append_cons_drop, if_pos hlt]
  simp only [List.flatMap_append, List.flatMap_cons, List.countP_append]
  omega

theorem settles_set (hv : nodes[n]? = some v) (htag : v'.tag = .merge ↔ v.tag = .merge)
    (hcount : v'.pairs.countP (isMerge nodes) ≤ v.pairs.countP (isMerge nodes))
    (hfree : ∀ k, Unmerged nodes (v.pairs.take k) → Unmerged nodes (v'.pairs.take k)) :
    Settles nodes (nodes.set n v') := by
  have hmerge := isMerge_set hv htag
  have hkeys := mergeKeys_set hv htag
  refine ⟨hmerge, by omega, fun m k hm w hw => ?_⟩
  rw [Unmerged, hmerge]
  rw [List.getElem?_set] at hw
  split at hw
  · next heq =>
      subst heq
      split at hw
      · cases hw
        exact hfree k (hm v hv)
      · cases hw
  · exact hm w hw

/-! ## Steps that end -/

/-- A step does not run out of fuel.  It takes merge keys away at most, and gives an answer of some
kind if it gives one. -/
def Ends (step : Builds α) (b : Builder) (post : α → Builder → Prop) : Prop :=
  step b ≠ .error .tooDeep ∧
    ∀ a b', step b = .ok (a, b') → Settles b.nodes b'.nodes ∧ post a b'

theorem ends_ok {step : Builds α} {a : α} {post : α → Builder → Prop} (h : step b = .ok (a, b'))
    (hsettles : Settles b.nodes b'.nodes) (hpost : post a b') : Ends step b post := by
  refine ⟨by rw [h]; nofun, fun a' b'' hrun => ?_⟩
  cases h.symm.trans hrun
  exact ⟨hsettles, hpost⟩

theorem ends_malformed {step : Builds α} {post : α → Builder → Prop}
    (h : step b = .error .malformed) : Ends step b post :=
  ⟨by rw [h]; nofun, fun _ _ hrun => by rw [h] at hrun; cases hrun⟩

theorem Ends.bind {step : Builds α} {next : α → Builds β} {post : α → Builder → Prop}
    {post' : β → Builder → Prop} (h : Ends step b post)
    (hnext : ∀ a b', Settles b.nodes b'.nodes → post a b' → Ends (next a) b' post') :
    Ends (step >>= next) b post' := by
  rw [Ends, Stateful.bind_eq]
  cases hstep : step b with
  | error f =>
      refine ⟨fun heq => h.1 ?_, nofun⟩
      rw [hstep, Except.error.inj heq]
  | ok r =>
      obtain ⟨a, b₁⟩ := r
      obtain ⟨hsettles, hpost⟩ := h.2 a b₁ hstep
      obtain ⟨hends, hresult⟩ := hnext a b₁ hsettles hpost
      refine ⟨hends, fun c b₂ hrun => ?_⟩
      obtain ⟨hsettles', hpost'⟩ := hresult c b₂ hrun
      exact ⟨hsettles.trans hsettles', hpost'⟩

theorem Ends.imp {step : Builds α} {post post' : α → Builder → Prop} (h : Ends step b post)
    (himp : ∀ a b', Settles b.nodes b'.nodes → post a b' → post' a b') : Ends step b post' :=
  ⟨h.1, fun a b' hrun => ⟨(h.2 a b' hrun).1, himp a b' (h.2 a b' hrun).1 (h.2 a b' hrun).2⟩⟩

/-- Steps one after the other, for as long as something holds of the state. -/
theorem ends_mapM {step : α → Builds β} {inv : Builder → Prop} {post : β → Prop}
    (h : ∀ x b, inv b → Ends (step x) b fun y b' => inv b' ∧ post y) (xs : List α) (hb : inv b) :
    Ends (xs.mapM step) b fun ys _ => ∀ y ∈ ys, post y := by
  induction xs generalizing b with
  | nil => exact ends_ok rfl (.refl _) nofun
  | cons x xs ih =>
      rw [List.mapM_cons]
      refine (h x b hb).bind fun y b₁ _ hy => ?_
      refine (ih hy.1).bind fun ys b₂ _ hys => ?_
      exact ends_ok rfl (.refl _) (List.forall_mem_cons.mpr ⟨hy.2, hys⟩)

theorem ends_forM {step : α → Builds PUnit} {inv : Builder → Prop}
    (h : ∀ x b, inv b → Ends (step x) b fun _ b' => inv b') (xs : List α) (hb : inv b) :
    Ends (xs.forM step) b fun _ b' => inv b' := by
  induction xs generalizing b with
  | nil => exact ends_ok rfl (.refl _) hb
  | cons x xs ih => exact (h x b hb).bind fun _ b₁ _ hb₁ => ih hb₁

/-! ## Nodes -/

theorem ends_get (b : Builder) : Ends get b fun b₁ b₂ => b₁ = b ∧ b₂ = b :=
  ends_ok rfl (.refl _) ⟨rfl, rfl⟩

theorem ends_node (n : ℕ) (b : Builder) :
    Ends (node n) b fun v b' => b' = b ∧ b.nodes[n]? = some v := by
  cases hv : b.nodes[n]? with
  | none => exact ends_malformed (by simp [node, hv]; rfl)
  | some v => exact ends_ok (node_eq_ok_iff.mpr ⟨hv, rfl⟩) (.refl _) ⟨rfl, rfl⟩

theorem ends_pairsOf (n : ℕ) (b : Builder) :
    Ends (pairsOf n) b fun pairs b' => b' = b ∧ ∃ tag, b.nodes[n]? = some (.mapping tag pairs) := by
  refine (ends_node n b).bind fun v b₁ _ hnode => ?_
  obtain ⟨rfl, hv⟩ := hnode
  cases v with
  | scalar tag text => exact ends_malformed rfl
  | sequence tag items => exact ends_malformed rfl
  | mapping tag pairs => exact ends_ok rfl (.refl _) ⟨rfl, tag, hv⟩

/-- A default key that becomes an ordinary one changes no pairs and is no merge key. -/
theorem ends_plainKey {tag : Tag} {pairs : List (ℕ × ℕ)}
    (hn : b.nodes[n]? = some (.mapping tag pairs)) (k : ℕ) :
    Ends (plainKey k) b fun _ b' => ∃ tag', b'.nodes[n]? = some (.mapping tag' pairs) := by
  refine (ends_node k b).bind fun v b₁ _ hnode => ?_
  obtain ⟨rfl, hv⟩ := hnode
  have hpairs : (v.withTag .str).pairs = v.pairs := by cases v <;> rfl
  have htag : (v.withTag .str).tag = .str := by cases v <;> rfl
  split
  · next hvalue =>
      refine ends_ok rfl (settles_set hv (by rw [htag, hvalue]; decide) ?_ ?_) ?_
      · rw [hpairs]
      · rw [hpairs]
        exact fun _ => id
      · by_cases hk : k = n
        · subst hk
          cases hv.symm.trans hn
          exact ⟨.str, List.getElem?_set_self (List.getElem?_eq_some_iff.mp hv).1⟩
        · exact ⟨tag, (List.getElem?_set_ne hk).trans hn⟩
  · exact ends_ok rfl (.refl _) ⟨tag, hn⟩

theorem ends_setPairs {tag : Tag} {old pairs : List (ℕ × ℕ)}
    (hn : b.nodes[n]? = some (.mapping tag old))
    (hcount : pairs.countP (isMerge b.nodes) ≤ old.countP (isMerge b.nodes))
    (hfree : ∀ k, Unmerged b.nodes (old.take k) → Unmerged b.nodes (pairs.take k)) :
    Ends (setPairs n pairs) b fun _ b' => b'.nodes = b.nodes.set n (.mapping tag pairs) := by
  refine (ends_node n b).bind fun v b₁ _ hnode => ?_
  obtain ⟨rfl, hv⟩ := hnode
  cases hv.symm.trans hn
  exact ends_ok rfl (settles_set hn Iff.rfl hcount hfree) rfl

/-! ## The pairs of a mapping -/

theorem Unmerged.append {pairs pairs' : List (ℕ × ℕ)} (h : Unmerged nodes pairs)
    (h' : Unmerged nodes pairs') : Unmerged nodes (pairs ++ pairs') :=
  List.forall_mem_append.mpr ⟨h, h'⟩

theorem Unmerged.take {pairs : List (ℕ × ℕ)} (h : Unmerged nodes pairs) (k : ℕ) :
    Unmerged nodes (pairs.take k) :=
  fun p hp => h p (List.mem_of_mem_take hp)

theorem Unmerged.countP_eq_zero {pairs : List (ℕ × ℕ)} (h : Unmerged nodes pairs) :
    pairs.countP (isMerge nodes) = 0 :=
  List.countP_eq_zero.mpr fun p hp => by rw [h p hp]; decide

/-- The pairs from a place on, up to the first merge key. -/
def ownFrom (nodes : List Node) (pairs : List (ℕ × ℕ)) (start : ℕ) : List (ℕ × ℕ) :=
  (pairs.drop start).takeWhile fun (k, _) => !hasTag nodes .merge k

theorem unmerged_take_add {pairs : List (ℕ × ℕ)} {start : ℕ}
    (h : Unmerged nodes (pairs.take start)) :
    Unmerged nodes (pairs.take (start + (ownFrom nodes pairs start).length)) := by
  have hown : (pairs.drop start).take (ownFrom nodes pairs start).length =
      ownFrom nodes pairs start :=
    (List.prefix_iff_eq_take.mp (List.takeWhile_prefix _)).symm
  rw [List.take_add, hown]
  refine h.append fun p hp => ?_
  simpa [isMerge] using List.mem_takeWhile_imp hp

/-- The pair that stopped the search has a merge key. -/
theorem isMerge_of_getElem? {pairs : List (ℕ × ℕ)} {start : ℕ} {p : ℕ × ℕ}
    (h : pairs[start + (ownFrom nodes pairs start).length]? = some p) : isMerge nodes p = true := by
  have hstop : ((pairs.drop start).dropWhile fun (k, _) => !hasTag nodes .merge k).head? =
      some p := by
    rw [← List.getElem?_drop, ← List.takeWhile_append_dropWhile (l := pairs.drop start)
      (p := fun (k, _) => !hasTag nodes .merge k)] at h
    rwa [ownFrom, List.getElem?_append_right (Nat.le_refl _), Nat.sub_self,
      ← List.head?_eq_getElem?] at h
  have hnot := List.head?_dropWhile_not (fun (k, _) => !hasTag nodes .merge k) (pairs.drop start)
  rw [hstop] at hnot
  simpa [isMerge] using hnot

/-- A merge key that is taken away is one less. -/
theorem countP_eraseIdx {pairs : List (ℕ × ℕ)} {p : ℕ × ℕ} (h : pairs[k]? = some p)
    (hp : isMerge nodes p = true) :
    (pairs.eraseIdx k).countP (isMerge nodes) + 1 = pairs.countP (isMerge nodes) := by
  obtain ⟨hk, rfl⟩ := List.getElem?_eq_some_iff.mp h
  calc (pairs.eraseIdx k).countP (isMerge nodes) + 1
      = (pairs.take k ++ pairs[k] :: pairs.drop (k + 1)).countP (isMerge nodes) := by
        rw [List.eraseIdx_eq_take_drop_succ, List.countP_append, List.countP_append,
          List.countP_cons_of_pos hp, Nat.add_assoc]
    _ = pairs.countP (isMerge nodes) := by simp

/-- The pairs in front of a merge key stay in front. -/
theorem unmerged_take_eraseIdx {pairs : List (ℕ × ℕ)} {p : ℕ × ℕ} {m : ℕ}
    (h : pairs[m]? = some p) (hp : isMerge nodes p = true) (k : ℕ)
    (hk : Unmerged nodes (pairs.take k)) : Unmerged nodes ((pairs.eraseIdx m).take k) := by
  have hle : k ≤ m := by
    by_contra hlt
    have hmem : p ∈ pairs.take k :=
      List.mem_of_getElem? ((List.getElem?_take_of_lt (by omega)).trans h)
    exact absurd (hk p hmem) (by rw [hp]; decide)
  rwa [List.take_eraseIdx_eq_take_of_le _ _ _ hle]

/-! ## Mappings -/

theorem free_iff {tag : Tag} {pairs : List (ℕ × ℕ)}
    (hn : nodes[n]? = some (.mapping tag pairs)) :
    Free nodes n k ↔ Unmerged nodes (pairs.take k) := by
  refine ⟨fun h => h _ hn, fun h v hv => ?_⟩
  cases hv.symm.trans hn
  exact h

theorem free_zero (nodes : List Node) (n : ℕ) : Free nodes n 0 :=
  fun _ _ => unmerged_nil nodes

/-- The last step: what the merge keys stand for comes in front of the pairs. -/
theorem ends_prepend {tag : Tag} {merged pairs : List (ℕ × ℕ)}
    (hn : b.nodes[n]? = some (.mapping tag pairs)) (hmerged : Unmerged b.nodes merged)
    (hpairs : Unmerged b.nodes pairs) :
    Ends (if (!merged.isEmpty) = true then setPairs n (merged ++ pairs) else pure ()) b
      fun _ b' => ∀ k, Free b'.nodes n k := by
  have hall := hmerged.append hpairs
  split
  · refine (ends_setPairs hn ?_ fun k _ => hall.take k).imp fun _ b' hsettles hb' k => ?_
    · rw [hall.countP_eq_zero]
      exact Nat.zero_le _
    · have hlt := (List.getElem?_eq_some_iff.mp hn).1
      have hset : b'.nodes[n]? = some (.mapping tag (merged ++ pairs)) := by
        rw [hb', List.getElem?_set_self hlt]
      exact (free_iff hset).mpr (hsettles.unmerged.mpr (hall.take k))
  · exact ends_ok rfl (.refl _) fun k => (free_iff hn).mpr (hpairs.take k)

/-- A merge key is taken away: there is one less, and none comes before its place. -/
theorem ends_erase {tag : Tag} {pairs : List (ℕ × ℕ)} {p : ℕ × ℕ} {next : ℕ}
    (hn : b.nodes[n]? = some (.mapping tag pairs)) (hp : pairs[next]? = some p)
    (hmerge : isMerge b.nodes p = true) (hbefore : Unmerged b.nodes (pairs.take next)) :
    Ends (setPairs n (pairs.eraseIdx next)) b fun _ b' =>
      mergeKeys b'.nodes < mergeKeys b.nodes ∧ Free b'.nodes n next := by
  have hless := countP_eraseIdx hp hmerge
  refine (ends_setPairs hn (by omega) (unmerged_take_eraseIdx hp hmerge)).imp
    fun _ b' hsettles hb' => ⟨?_, hsettles.free n next ((free_iff hn).mpr hbefore)⟩
  have hkeys : mergeKeys b'.nodes + pairs.countP (isMerge b.nodes) =
      mergeKeys b.nodes + (pairs.eraseIdx next).countP (isMerge b.nodes) := by
    rw [hb']
    exact mergeKeys_set hn Iff.rfl
  omega

/-- Fuel for more merge keys than there are is enough to work out a mapping from a place on,
and leaves no merge key in it. -/
def Suffices (fuel : ℕ) : Prop :=
  ∀ (b : Builder) (n start : ℕ) (merged : List (ℕ × ℕ)), mergeKeys b.nodes < fuel →
    Unmerged b.nodes merged → Free b.nodes n start →
    Ends (flattenFrom fuel n start merged) b fun _ b' => ∀ k, Free b'.nodes n k

/-- The pairs of a mapping that a merge key names. -/
theorem Suffices.named (h : Suffices fuel) (hb : mergeKeys b.nodes < fuel) (m : ℕ) :
    Ends (flattenFrom fuel m 0 [] >>= fun _ => pairsOf m) b fun pairs b' =>
      Unmerged b'.nodes pairs := by
  refine (h b m 0 [] hb (unmerged_nil _) (free_zero _ m)).bind fun _ b₁ _ hfree => ?_
  refine (ends_pairsOf m b₁).imp fun pairs b₂ _ hpairs => ?_
  obtain ⟨rfl, tag, hm⟩ := hpairs
  simpa using (free_iff hm).mp (hfree pairs.length)

/-- The pairs of several mappings.  Working out one of them leaves enough fuel for the next. -/
theorem Suffices.allNamed (h : Suffices fuel) (hb : mergeKeys b.nodes < fuel) (items : List ℕ) :
    Ends (items.mapM fun m => flattenFrom fuel m 0 [] >>= fun _ => pairsOf m) b fun parts b' =>
      Unmerged b'.nodes parts.reverse.flatten := by
  have hstep (m : ℕ) (b₁ : Builder) (h₁ : Settles b.nodes b₁.nodes) :
      Ends (flattenFrom fuel m 0 [] >>= fun _ => pairsOf m) b₁ fun pairs b₂ =>
        Settles b.nodes b₂.nodes ∧ Unmerged b.nodes pairs :=
    (h.named (Nat.lt_of_le_of_lt h₁.mergeKeys_le hb) m).imp fun pairs b₂ h₂ hpairs =>
      ⟨h₁.trans h₂, (h₁.trans h₂).unmerged.mp hpairs⟩
  refine (ends_mapM hstep items (.refl _)).imp fun parts b' hsettles hparts => ?_
  refine hsettles.unmerged.mpr fun p hp => ?_
  obtain ⟨pairs, hpairs, hmem⟩ := List.mem_flatten.mp hp
  exact hparts pairs (List.mem_reverse.mp hpairs) p hmem

/-- A mapping goes on with one merge key less. -/
theorem Suffices.succ (h : Suffices fuel) : Suffices (fuel + 1) := by
  intro b n start merged hfuel hmerged hfree
  unfold flattenFrom
  refine (ends_pairsOf n b).bind fun pairs b₁ _ hpairs => ?_
  obtain ⟨rfl, tag, hn⟩ := hpairs
  refine (ends_get b₁).bind fun b₂ b₃ _ hget => ?_
  obtain ⟨rfl, rfl⟩ := hget
  -- the mapping's own keys up to the next merge key: its pairs stay as they are
  refine (ends_forM (fun p b (hb : ∃ tag, b.nodes[n]? = some (.mapping tag pairs)) =>
    ends_plainKey hb.choose_spec p.1) _ ⟨tag, hn⟩).bind fun _ b₄ h₄ hown => ?_
  obtain ⟨tag', hn'⟩ := hown
  have hkeys := h₄.mergeKeys_le
  have hmerged' := h₄.unmerged.mpr hmerged
  have hbefore := h₄.unmerged.mpr (unmerged_take_add ((free_iff hn).mp hfree))
  dsimp only
  split
  · next hnone =>
      have hall : pairs.take (start + (ownFrom b₃.nodes pairs start).length) = pairs :=
        List.take_of_length_le (List.getElem?_eq_none_iff.mp hnone)
      rw [hall] at hbefore
      exact ends_prepend hn' hmerged' hbefore
  · next key value hsome =>
      have hmerge : isMerge b₄.nodes (key, value) = true := by
        rw [h₄.isMerge_eq]
        exact isMerge_of_getElem? hsome
      refine (ends_erase hn' hsome hmerge hbefore).bind fun _ b₅ h₅ herased => ?_
      obtain ⟨hless, hfree'⟩ := herased
      have hb₅ : mergeKeys b₅.nodes < fuel := by omega
      -- what is named comes behind what was named before
      have hrest (named : List (ℕ × ℕ)) (b : Builder) (h' : Settles b₅.nodes b.nodes)
          (hnamed : Unmerged b.nodes named) :
          Ends (flattenFrom fuel n (start + (ownFrom b₃.nodes pairs start).length)
            (merged ++ named)) b fun _ b' => ∀ k, Free b'.nodes n k :=
        h b n _ _ (Nat.lt_of_le_of_lt h'.mergeKeys_le hb₅)
          ((h₅.trans h').unmerged.mpr hmerged' |>.append hnamed) (h'.free n _ hfree')
      refine (ends_node value b₅).bind fun v b₆ _ hnode => ?_
      obtain ⟨rfl, -⟩ := hnode
      split
      · exact ends_malformed rfl
      · exact (h.allNamed hb₅ _).bind fun parts => hrest parts.reverse.flatten
      · exact (h.named hb₅ value).bind hrest

theorem suffices_fuel (fuel : ℕ) : Suffices fuel := by
  induction fuel with
  | zero => exact fun b n start merged hfuel => absurd hfuel (Nat.not_lt_zero _)
  | succ fuel ih => exact ih.succ

/-- Merge keys can be worked out in every mapping, and none is left in it. -/
theorem flatten_ends (n : ℕ) (b : Builder) :
    Ends (flatten n) b fun _ b' => ∀ k, Free b'.nodes n k := by
  refine (ends_get b).bind fun b₁ b₂ _ hget => ?_
  obtain ⟨rfl, rfl⟩ := hget
  exact suffices_fuel _ b₂ n 0 [] (Nat.lt_succ_self _) (unmerged_nil _) (free_zero _ n)

/-! ## Default keys -/

/-- A mapping that runs out of fuel has a default, and it has the text of its default. -/
theorem exists_default (h : scalarText nodes (k + 1) n = .error .tooDeep) :
    n < nodes.length ∧ ∃ m, ∀ f, scalarText nodes (f + 1) n = scalarText nodes f m := by
  unfold scalarText at h
  split at h
  · cases h
  · next tag pairs hn =>
      split at h
      · next key m hfind =>
          refine ⟨(List.getElem?_eq_some_iff.mp hn).1, m, fun f => ?_⟩
          rw [scalarText, hn]
          dsimp only
          rw [hfind]
      · cases h
  · cases h

/-- Less fuel runs out as well. -/
theorem scalarText_of_le (hle : k ≤ fuel) (h : scalarText nodes fuel n = .error .tooDeep) :
    scalarText nodes k n = .error .tooDeep := by
  induction k generalizing fuel n with
  | zero => rfl
  | succ k ih =>
      obtain ⟨f, rfl⟩ : ∃ f, fuel = f + 1 := ⟨fuel - 1, by omega⟩
      obtain ⟨-, m, hm⟩ := exists_default h
      rw [hm]
      exact ih (Nat.le_of_succ_le_succ hle) ((hm f).symm.trans h)

/-- A mapping that needs more fuel leads through as many different nodes. -/
theorem exists_path (h : scalarText nodes k n = .error .tooDeep)
    (hnot : scalarText nodes (k + 1) n ≠ .error .tooDeep) :
    ∃ path : List ℕ, path.Nodup ∧ path.length = k ∧
      ∀ m ∈ path, m < nodes.length ∧ scalarText nodes (k + 1) m ≠ .error .tooDeep := by
  induction k generalizing n with
  | zero => exact ⟨[], List.nodup_nil, rfl, nofun⟩
  | succ k ih =>
      obtain ⟨hlt, m, hm⟩ := exists_default h
      obtain ⟨path, hnodup, hlength, hpath⟩ := ih ((hm k).symm.trans h) (hm _ ▸ hnot)
      have hnew : n ∉ path := fun hmem => (hpath n hmem).2 h
      refine ⟨n :: path, List.nodup_cons.mpr ⟨hnew, hnodup⟩, by rw [List.length_cons, hlength], ?_⟩
      refine List.forall_mem_cons.mpr ⟨⟨hlt, hnot⟩, fun x hx => ⟨(hpath x hx).1, fun hdeep => ?_⟩⟩
      exact (hpath x hx).2 (scalarText_of_le (Nat.le_succ _) hdeep)

/-- What runs out of one more fuel than there are nodes never comes to an end. -/
theorem scalarText_tooDeep (h : scalarText nodes (nodes.length + 1) n = .error .tooDeep) (k : ℕ) :
    scalarText nodes k n = .error .tooDeep := by
  induction k with
  | zero => rfl
  | succ k ih =>
      by_contra hnot
      obtain ⟨path, hnodup, hlength, hpath⟩ := exists_path ih hnot
      have hsubset : path ⊆ List.range nodes.length :=
        fun m hm => List.mem_range.mpr (hpath m hm).1
      have hle := (hnodup.subperm hsubset).length_le
      rw [List.length_range, hlength] at hle
      exact hnot (scalarText_of_le (Nat.succ_le_succ hle) h)

end Builder

/-! ## Data -/

variable {filled : List (ℕ × Contents)} {outer : List ℕ} {k fuel : ℕ}

theorem Contents.datum_congr {f g : Part → Datum} (h : ∀ part, f part = g part) (c : Contents) :
    c.datum f = c.datum g := by
  rw [funext h]

/-- Fuel for the collections that are not around is enough: more of it changes nothing. -/
theorem partDatum_succ (hfilled : ∀ n c, filled.lookup n = some c → n < k) (hnodup : outer.Nodup)
    (houter : ∀ n ∈ outer, n < k) (hfuel : k ≤ fuel + outer.length) (part : Part) :
    partDatum filled (fuel + 1) outer part = partDatum filled fuel outer part := by
  induction fuel generalizing outer part with
  | zero =>
      rcases part with d | n
      · rw [partDatum, partDatum]
      rw [partDatum, partDatum]
      cases hfound : filled.lookup n with
      | none => rfl
      | some c =>
          -- all numbers are taken, so the collection is one of those around it
          have hmem : n ∈ outer := by
            by_contra hnot
            have hsubset : n :: outer ⊆ List.range k :=
              List.cons_subset.mpr ⟨List.mem_range.mpr (hfilled n c hfound),
                fun m hm => List.mem_range.mpr (houter m hm)⟩
            have hle := ((List.nodup_cons.mpr ⟨hnot, hnodup⟩).subperm hsubset).length_le
            rw [List.length_range, List.length_cons] at hle
            omega
          obtain ⟨between, hbetween⟩ := Option.isSome_iff_exists.mp (List.isSome_idxOf?.mpr hmem)
          dsimp only
          rw [hbetween]
  | succ fuel ih =>
      rcases part with d | n
      · rw [partDatum, partDatum]
      rw [partDatum, partDatum]
      cases hfound : filled.lookup n with
      | none => rfl
      | some c =>
          dsimp only
          cases hbetween : outer.idxOf? n with
          | some between => rfl
          | none =>
              have hnew : n ∉ outer := List.idxOf?_eq_none_iff.mp hbetween
              refine Contents.datum_congr (ih (List.nodup_cons.mpr ⟨hnew, hnodup⟩) ?_ ?_) c
              · exact List.forall_mem_cons.mpr ⟨hfilled n c hfound, houter⟩
              · rw [List.length_cons]
                omega

end LoopPainter.Yaml
