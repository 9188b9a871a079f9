import LoopPainter.Proofs.Names
import LoopPainter.Proofs.Yaml.Parsing
import LoopPainter.Proofs.Yaml.Sound

/-!
# The data of nodes

What a list of nodes and a mapping with different texts for keys stand for, wherever in a document
they are laid out.  The parts of a collection have higher numbers than the collection, so nothing
comes up inside itself when the datum is read off.

Every mapping that is read, whatever its text, is put together key by key, so its names are
different (`nodup_names_of_load`).
-/

namespace LoopPainter.Yaml

open Yaml.Node Builder

variable {v : Node} {d : Datum} {text : String} {nodes : List Node} {b : Builder} {n fuel : ℕ}
  {outer : List ℕ} {part : Part} {ds : List Datum} {ps acc : List (Datum × Datum)} {l : Layout}
  {ls : List Layout} {pairs : List (Layout × Layout)}

/-! ## Layouts in a document -/

/-- Nodes are in a document from a number on. -/
def Present (nodes : List Node) (n : ℕ) (added : List Node) : Prop :=
  added <+: nodes.drop n

theorem Present.head {rest : List Node} (h : Present nodes n (v :: rest)) :
    nodes[n]? = some v ∧ Present nodes (n + 1) rest := by
  obtain ⟨after, hafter⟩ := h
  have htail : nodes.drop (n + 1) = rest ++ after := by
    rw [← List.drop_drop, ← hafter]
    rfl
  refine ⟨?_, after, htail.symm⟩
  rw [← Nat.add_zero n, ← List.getElem?_drop, ← hafter]
  rfl

theorem Present.append {first rest : List Node} (h : Present nodes n (first ++ rest)) :
    Present nodes n first ∧ Present nodes (n + first.length) rest := by
  obtain ⟨after, hafter⟩ := h
  rw [List.append_assoc] at hafter
  refine ⟨⟨_, hafter⟩, after, ?_⟩
  rw [← List.drop_drop, ← hafter, List.drop_left]

/-- A node stands for a datum, wherever it is laid out.  The collections around it have lower
numbers, so it is none of them. -/
structure Means (l : Layout) (d : Datum) : Prop where
  lt {nodes : List Node} {n : ℕ} : Present nodes n (l n) → n < nodes.length
  sound {nodes : List Node} {n : ℕ} : Present nodes n (l n) → ∀ v ∈ l n, Sound nodes v
  datum {nodes : List Node} {n : ℕ} {b : Builder} {outer : List ℕ} {fuel : ℕ} {part : Part} :
    Present nodes n (l n) → Built nodes b → (∀ m ∈ outer, m < n) → nodes.length ≤ n + fuel →
      Remembers b.made n part → partDatum b.filled fuel outer part = d

/-- A pair of nodes stands for a pair of data, of which the first is a text. -/
def MeansPair (p : Layout × Layout) (q : Datum × Datum) : Prop :=
  ∃ key : String, p.1 = .single (.scalar .str key) ∧ q.1 = .text key ∧ Means p.2 q.2

theorem IsLeaf.means (h : IsLeaf v d) : Means (.single v) d where
  lt hpresent := (List.getElem?_eq_some_iff.mp hpresent.head.1).1
  sound _ := List.forall_mem_singleton.mpr (.leaf h)
  datum hpresent hbuilt _ _ hpart := by
    obtain ⟨w, hw, hwhat⟩ := hbuilt.faithful.made _ _ hpart
    cases hpresent.head.1.symm.trans hw
    rcases hwhat with ⟨-, htag⟩ | ⟨d', rfl, hleaf⟩
    · rw [h.isCollection_eq] at htag
      cases htag
    · rw [partDatum]
      exact hleaf.unique h

theorem means_text (text : String) : Means (.single (.scalar .str text)) (.text text) :=
  (IsLeaf.text text).means

theorem means_int {i : ℤ} (h : readInteger text = .ok i) :
    Means (.single (.scalar .int text)) (.int i) :=
  (IsLeaf.int h).means

/-- A collection of a document that has been built is opened where it is not inside itself. -/
theorem partDatum_collection (hbuilt : Built nodes b) (hv : nodes[n]? = some v)
    (htag : v.tag.isCollection = true) (hpart : Remembers b.made n part)
    (houter : ∀ m ∈ outer, m < n) (hfuel : nodes.length ≤ n + fuel) :
    ∃ c fuel', Holds nodes b.made v c ∧ nodes.length ≤ n + 1 + fuel' ∧
      partDatum b.filled fuel outer part = c.datum (partDatum b.filled fuel' (n :: outer)) := by
  obtain ⟨rfl, c, hc, hholds⟩ := hbuilt.contents hv htag hpart
  have hlt := (List.getElem?_eq_some_iff.mp hv).1
  obtain ⟨fuel', rfl⟩ : ∃ k, fuel = k + 1 := ⟨fuel - 1, by omega⟩
  have hnew : outer.idxOf? n = none :=
    List.idxOf?_eq_none_iff.mpr fun hmem => Nat.lt_irrefl n (houter n hmem)
  refine ⟨c, fuel', hholds, by omega, ?_⟩
  rw [partDatum, hc]
  simp [hnew]

/-! ## Lists -/

/-- Items that are laid out one after the other stand for data. -/
structure MeansItems (ls : List Layout) (ds : List Datum) : Prop where
  lt {nodes : List Node} {n : ℕ} : Present nodes n (Layout.items ls n).2 →
    ∀ m ∈ (Layout.items ls n).1, m < nodes.length
  sound {nodes : List Node} {n : ℕ} : Present nodes n (Layout.items ls n).2 →
    ∀ v ∈ (Layout.items ls n).2, Sound nodes v
  data {nodes : List Node} {n : ℕ} {b : Builder} {outer : List ℕ} {fuel : ℕ} {parts : List Part} :
    Present nodes n (Layout.items ls n).2 → Built nodes b → (∀ m ∈ outer, m < n) →
      nodes.length ≤ n + fuel → List.Forall₂ (Remembers b.made) (Layout.items ls n).1 parts →
      parts.map (partDatum b.filled fuel outer) = ds

theorem meansItems (h : List.Forall₂ Means ls ds) : MeansItems ls ds := by
  induction h with
  | nil =>
      refine ⟨fun _ => nofun, fun _ => nofun, fun _ _ _ _ hparts => ?_⟩
      cases hparts
      rfl
  -- the first item has lower numbers than the others, so the collections around it are around them
  | @cons l d ls ds hl h ih =>
      refine ⟨fun hpresent => ?_, fun hpresent => ?_, fun hpresent hbuilt houter hfuel hparts => ?_⟩
      · exact List.forall_mem_cons.mpr ⟨hl.lt hpresent.append.1, ih.lt hpresent.append.2⟩
      · exact List.forall_mem_append.mpr ⟨hl.sound hpresent.append.1, ih.sound hpresent.append.2⟩
      · cases hparts with
        | cons hpart hparts =>
            rw [List.map_cons, hl.datum hpresent.append.1 hbuilt houter hfuel hpart,
              ih.data hpresent.append.2 hbuilt (fun m hm => Nat.lt_add_right _ (houter m hm))
                (by omega) hparts]

theorem means_sequence (h : List.Forall₂ Means ls ds) : Means (.sequence ls) (.list ds) where
  lt hpresent := (List.getElem?_eq_some_iff.mp hpresent.head.1).1
  sound hpresent :=
    List.forall_mem_cons.mpr
      ⟨.sequence ((meansItems h).lt hpresent.head.2), (meansItems h).sound hpresent.head.2⟩
  datum {_ n _ outer _ _} hpresent hbuilt houter hfuel hpart := by
    obtain ⟨c, fuel, hholds, hfuel, hdatum⟩ :=
      partDatum_collection hbuilt hpresent.head.1 rfl hpart houter hfuel
    -- the list itself has joined the collections around its parts
    have hinner : ∀ m ∈ n :: outer, m < n + 1 :=
      List.forall_mem_cons.mpr ⟨Nat.lt_succ_self n, fun m hm => Nat.lt_succ_of_lt (houter m hm)⟩
    cases hholds with
    | list hparts =>
        rw [hdatum, Contents.datum, (meansItems h).data hpresent.head.2 hbuilt hinner hfuel hparts]

/-! ## Mappings -/

/-- Pairs that are laid out one after the other stand for pairs of data. -/
structure MeansPairs (pairs : List (Layout × Layout)) (ps : List (Datum × Datum)) : Prop where
  lt {nodes : List Node} {n : ℕ} : Present nodes n (Layout.pairs pairs n).2 →
    ∀ p ∈ (Layout.pairs pairs n).1,
      (∃ key, nodes[p.1]? = some (.scalar .str key)) ∧ p.2 < nodes.length
  sound {nodes : List Node} {n : ℕ} : Present nodes n (Layout.pairs pairs n).2 →
    ∀ v ∈ (Layout.pairs pairs n).2, Sound nodes v
  data {nodes : List Node} {n : ℕ} {b : Builder} {outer : List ℕ} {fuel : ℕ}
      {parts : List (Datum × Part)} :
    Present nodes n (Layout.pairs pairs n).2 → Built nodes b → (∀ m ∈ outer, m < n) →
      nodes.length ≤ n + fuel →
      List.Forall₂ (RemembersPair nodes b.made) (Layout.pairs pairs n).1 parts →
      (parts.map fun (k, part) => (k, partDatum b.filled fuel outer part)) = ps

theorem meansPairs (h : List.Forall₂ MeansPair pairs ps) : MeansPairs pairs ps := by
  induction h with
  | nil =>
      refine ⟨fun _ => nofun, fun _ => nofun, fun _ _ _ _ hparts => ?_⟩
      cases hparts
      rfl
  | @cons p q pairs ps hp h ih =>
      obtain ⟨k, l⟩ := p
      obtain ⟨k', d⟩ := q
      obtain ⟨key, rfl, rfl, hl⟩ := hp
      -- a key is one node, and its value comes right behind it
      have hpresent {nodes : List Node} {n : ℕ} (hpresent : Present nodes n
          (Layout.pairs ((.single (.scalar .str key), l) :: pairs) n).2) :
          nodes[n]? = some (.scalar .str key) ∧ Present nodes (n + 1) (l (n + 1)) ∧
            Present nodes (n + 1 + (l (n + 1)).length)
              (Layout.pairs pairs (n + 1 + (l (n + 1)).length)).2 :=
        ⟨hpresent.head.1, hpresent.head.2.append⟩
      refine ⟨fun h => ?_, fun h => ?_, fun h hbuilt houter hfuel hparts => ?_⟩
      · obtain ⟨hkey, hvalue, hrest⟩ := hpresent h
        exact List.forall_mem_cons.mpr ⟨⟨⟨key, hkey⟩, hl.lt hvalue⟩, ih.lt hrest⟩
      · obtain ⟨-, hvalue, hrest⟩ := hpresent h
        exact List.forall_mem_cons.mpr ⟨.leaf (.text key),
          List.forall_mem_append.mpr ⟨hl.sound hvalue, ih.sound hrest⟩⟩
      · obtain ⟨hkey, hvalue, hrest⟩ := hpresent h
        cases hparts with
        | @cons _ q _ _ hpart hparts =>
            obtain ⟨k, part⟩ := q
            obtain ⟨key', hkey', rfl, hremembers⟩ := hpart
            cases hkey.symm.trans hkey'
            have hlater (k m : ℕ) hm := Nat.lt_add_right k (houter m hm)
            rw [List.map_cons, ih.data hrest hbuilt (fun m hm => Nat.lt_add_right _ (hlater 1 m hm))
              (by omega) hparts]
            dsimp only
            rw [hl.datum hvalue hbuilt (hlater 1) (by omega) hremembers]

theorem putAll_eq (htext : ∀ p ∈ ps, ∃ key, p.1 = .text key) (hdistinct : (ps.map (·.1)).Nodup) :
    putAll ps = ps := by
  -- every key is new to the pairs that are there already
  have hfold : ∀ acc : List (Datum × Datum), (∀ p ∈ ps, p.1 ∉ acc.map (·.1)) →
      ps.foldl (fun acc p => Datum.putPair p.1 p.2 acc) acc = acc ++ ps := by
    induction ps with
    | nil => exact fun acc _ => (List.append_nil acc).symm
    | cons p ps ih =>
        intro acc hacc
        rw [List.map_cons, List.nodup_cons] at hdistinct
        rw [List.forall_mem_cons] at htext hacc
        obtain ⟨key, hkey⟩ := htext.1
        have hput : Datum.putPair p.1 p.2 acc = acc ++ [(p.1, p.2)] := by
          rw [hkey] at hacc ⊢
          exact Datum.putPair_of_not_mem hacc.1
        rw [List.foldl_cons, hput, ih htext.2 hdistinct.2, List.append_assoc]
        · rfl
        · intro q hq hmem
          rw [List.map_append, List.mem_append] at hmem
          rcases hmem with hmem | hmem
          · exact hacc.2 q hq hmem
          · have hsame : q.1 = p.1 := by simpa using hmem
            exact hdistinct.1 (hsame ▸ List.mem_map_of_mem hq)
  exact hfold [] nofun

theorem exists_text_of_mem (h : List.Forall₂ MeansPair pairs ps) :
    ∀ q ∈ ps, ∃ key, q.1 = .text key := by
  induction h with
  | nil => nofun
  | cons hp h ih =>
      obtain ⟨key, -, hkey, -⟩ := hp
      exact List.forall_mem_cons.mpr ⟨⟨key, hkey⟩, ih⟩

theorem means_mapping (h : List.Forall₂ MeansPair pairs ps) (hdistinct : (ps.map (·.1)).Nodup) :
    Means (.mapping pairs) (.map ps) where
  lt hpresent := (List.getElem?_eq_some_iff.mp hpresent.head.1).1
  sound hpresent :=
    List.forall_mem_cons.mpr
      ⟨.mapping ((meansPairs h).lt hpresent.head.2), (meansPairs h).sound hpresent.head.2⟩
  datum {_ n _ outer _ _} hpresent hbuilt houter hfuel hpart := by
    obtain ⟨c, fuel, hholds, hfuel, hdatum⟩ :=
      partDatum_collection hbuilt hpresent.head.1 rfl hpart houter hfuel
    -- the mapping itself has joined the collections around its parts
    have hinner : ∀ m ∈ n :: outer, m < n + 1 :=
      List.forall_mem_cons.mpr ⟨Nat.lt_succ_self n, fun m hm => Nat.lt_succ_of_lt (houter m hm)⟩
    cases hholds with
    | map hparts =>
        rw [hdatum, Contents.datum, (meansPairs h).data hpresent.head.2 hbuilt hinner hfuel hparts,
          putAll_eq (exists_text_of_mem h) hdistinct]

/-- The datum of a document that is a mapping. -/
theorem datum_mapping (h : List.Forall₂ MeansPair pairs ps) (hdistinct : (ps.map (·.1)).Nodup) :
    Graph.datum ⟨Layout.mapping pairs 0, 0⟩ = .ok (.map ps) := by
  have hpresent : Present (Layout.mapping pairs 0) 0 (Layout.mapping pairs 0) := List.prefix_rfl
  obtain ⟨part, b, hdatum, hbuilt, hpart⟩ := exists_built 0
    (fun n v hv => (means_mapping h hdistinct).sound hpresent v (List.mem_of_getElem? hv))
    (Nat.zero_lt_succ _)
  obtain ⟨rfl, c, hc, hholds⟩ := hbuilt.contents hpresent.head.1 rfl hpart
  rw [hdatum, Builder.datum, hc]
  cases hholds with
  | map hparts =>
      dsimp only
      rw [Contents.datum,
        (meansPairs h).data hpresent.head.2 hbuilt (List.forall_mem_nil _) ?_ hparts,
        putAll_eq (exists_text_of_mem h) hdistinct]
      rw [hbuilt.faithful.nodes_eq]
      exact Nat.le_add_left _ _

/-! ## Different names -/

theorem nodup_names_putAll (ps : List (Datum × Datum)) : (Datum.names (putAll ps)).Nodup := by
  have hfold : ∀ acc : List (Datum × Datum), (Datum.names acc).Nodup →
      (Datum.names (ps.foldl (fun acc p => Datum.putPair p.1 p.2 acc) acc)).Nodup := by
    induction ps with
    | nil => exact fun acc hacc => hacc
    | cons p ps ih => exact fun acc hacc => ih _ (Datum.nodup_names_putPair hacc _ _)
  exact hfold [] List.nodup_nil

theorem readTimestamp_ne_map (text : String) (ps : List (Datum × Datum)) :
    readTimestamp text ≠ .ok (.map ps) := by
  unfold readTimestamp
  intro h
  split at h
  · cases h
  · split at h
    all_goals
      obtain ⟨_, -, hmap⟩ := exists_of_map h
      cases hmap

/-- No scalar is a mapping. -/
theorem scalarDatum_ne_map {tag : Tag} (ps : List (Datum × Datum)) :
    scalarDatum nodes tag n ≠ .ok (.map ps) := by
  intro h
  unfold scalarDatum at h
  cases tag with
  | timestamp =>
      obtain ⟨s, -, hs⟩ := exists_of_bind h
      exact readTimestamp_ne_map s ps hs
  | null | str =>
      obtain ⟨s, -, hs⟩ := exists_of_bind h
      cases hs
  | bool | int | float | binary =>
      obtain ⟨s, -, hs⟩ := exists_of_bind h
      obtain ⟨_, -, hmap⟩ := exists_of_map hs
      cases hmap
  | _ => cases h

/-- A collection that is a mapping is put together key by key. -/
theorem exists_putAll_of_collection (h : b.datum (.collection n) = .map ps) :
    ∃ qs, ps = putAll qs := by
  rw [Builder.datum] at h
  split at h
  · cases h
  · next c _ =>
      cases c with
      | map pairs => exact ⟨_, (Datum.map.inj h).symm⟩
      | _ => cases h

/-- A mapping is put together key by key. -/
theorem exists_putAll_of_datum {root : ℕ} (h : Graph.datum ⟨nodes, root⟩ = .ok (.map ps)) :
    ∃ qs, ps = putAll qs := by
  obtain ⟨⟨part, b⟩, hbuild, hdatum⟩ := exists_of_bind h
  rw [Stateful.bind_eq] at hbuild
  cases hvalue : value root { nodes := nodes } with
  | error f => rw [hvalue] at hbuild; cases hbuild
  | ok r =>
      obtain ⟨part', b₁⟩ := r
      rw [hvalue] at hbuild
      dsimp only at hbuild
      rw [Stateful.bind_eq] at hbuild
      split at hbuild
      · cases hbuild
        obtain ⟨-, ⟨rfl, -⟩ | ⟨d, tag, rfl, hd, -⟩⟩ := make_cases hvalue
        · exact exists_putAll_of_collection (Except.ok.inj hdatum)
        · cases hdatum
          exact absurd hd (scalarDatum_ne_map ps)
      · cases hbuild

/-- The names of a mapping that was read are different. -/
theorem nodup_names_of_load (h : load text = .ok (.map ps)) : (Datum.names ps).Nodup := by
  unfold load at h
  dsimp only at h
  split at h
  · obtain ⟨g, -, hg⟩ := exists_of_bind h
    cases g with
    | none => cases hg
    | some g =>
        obtain ⟨qs, rfl⟩ := exists_putAll_of_datum hg
        exact nodup_names_putAll qs
  · cases h

end LoopPainter.Yaml
