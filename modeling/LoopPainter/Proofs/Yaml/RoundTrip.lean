import LoopPainter.Proofs.Yaml.Blocks
import LoopPainter.Proofs.Yaml.Parsing
import LoopPainter.Proofs.Yaml.Scalars

/-!
# Mappings written and read

What is read of a document that is a mapping, put together from what is read of its values.  A value
`Replays` as another one if what a writer adds for it behind the colon of a key has tokens, nodes
and a datum, and the datum is the other value.
-/

namespace LoopPainter.Yaml

open Lexer Yaml.Node

variable {s t : Sheet} {key : String} {d d' v v' : Datum} {ds ds' : List Datum}
  {ps ps' : List (Datum × Datum)} {n : ℕ}

/-! ## Values -/

/-- A value behind the colon of a key at a column is read as another one. -/
def Replays (n : ℕ) (d d' : Datum) : Prop :=
  ∀ s : Sheet, s.Inked → ∃ out toks layout, Lexes n out toks ∧ Parses toks layout ∧
    Means layout d' ∧
    Legible out ∧ s.Adds out (Sheet.node .value (some n) d s) ∧
    (Sheet.node .value (some n) d s).Inked

/-- The items of a list at a column are read as other ones. -/
def ReplaysItems (n : ℕ) (ds ds' : List Datum) : Prop :=
  ∀ s : Sheet, s.Fresh n → ∃ out t toks layouts, LexesItems n out (.blockEntry :: t :: toks) ∧
    ParsesItems (.blockEntry :: t :: toks) layouts ∧ List.Forall₂ Means layouts ds' ∧
    Legible out ∧ s.Adds out (Sheet.items n ds s) ∧ (Sheet.items n ds s).Inked

/-- The pairs of a mapping at a column are read as other ones. -/
def ReplaysPairs (n : ℕ) (ps ps' : List (Datum × Datum)) : Prop :=
  ∀ s : Sheet, s.Fresh n → ∃ out toks pairs, LexesPairs n out toks ∧ ParsesPairs toks pairs ∧
    List.Forall₂ MeansPair pairs ps' ∧ Legible out ∧ s.Adds out (Sheet.pairs n ps s) ∧
    (Sheet.pairs n ps s).Inked

/-- A value under a key that needs no quotes is read as another one under the same key. -/
def ReplaysPair (n : ℕ) (p p' : Datum × Datum) : Prop :=
  ∃ key : String, Label key.toList ∧ p.1 = .text key ∧ p'.1 = .text key ∧ Replays n p.2 p'.2

theorem Scribes.replays (h : Scribes n d d') : Replays n d d' := by
  intro s hs
  obtain ⟨plain, text, out, hscribed, hlegible, hmeans, hadds, hinked⟩ :=
    h .value s (.inr rfl) hs.spaced
  exact ⟨' ' :: out, _, _, lexes_scalar hscribed (by omega), parses_scalar _ plain, hmeans,
    .cons (by decide) hlegible, hadds, hinked⟩

/-! ## Lists -/

theorem items_startLine (h : s.Inked) (d : Datum) (ds : List Datum) :
    Sheet.items n (d :: ds) s = Sheet.items n (d :: ds) (s.startLine n) := by
  have hfresh := (Sheet.adds_startLine n (.inl h.indented)).2
  rw [Sheet.items, Sheet.items, hfresh.startLine_eq]

theorem replaysItems (h : List.Forall₂ (Scribes n) ds ds') (hne : ds ≠ []) :
    ReplaysItems n ds ds' := by
  induction h with
  | nil => exact absurd rfl hne
  | @cons d d' ds ds' hd h ih =>
      intro s hs
      have hhyphen := Sheet.adds_indicator s ['-'] true false true
      rw [hs.spaced, Bool.true_or, if_pos rfl] at hhyphen
      obtain ⟨plain, text, out, hscribed, hlegible, hmeans, hadds, hinked⟩ :=
        hd .item (s.indicator ['-'] true false true) (.inl rfl) rfl
      have hitem := hhyphen.trans hadds
      have hdash : Legible ('-' :: ' ' :: out) := .cons (by decide) (.cons (by decide) hlegible)
      rw [Sheet.items, hs.startLine_eq]
      -- after the last item comes whatever the list is in, else a line with the next hyphen
      cases h with
      | nil =>
          rw [Sheet.items]
          exact ⟨_, _, _, _, lexesItems_one hscribed (by omega), parsesItems_nil.cons _ plain,
            .cons hmeans .nil, hdash, hitem, hinked⟩
      | @cons e e' ds ds' he h =>
          obtain ⟨hline, hfresh⟩ := Sheet.adds_startLine n (.inl hinked.indented)
          obtain ⟨rest, t, toks, layouts, hlexes, hparses, hlayouts, hrest, hadds', hinked'⟩ :=
            ih nofun _ hfresh
          rw [← items_startLine hinked] at hadds' hinked'
          exact ⟨_, _, _, _, hlexes.cons hscribed (by omega), hparses.cons _ plain,
            .cons hmeans hlayouts, hdash.append ((legible_lineAt n).append hrest),
            hitem.trans (hline.trans hadds'), hinked'⟩

/-- A list of scalars that is not empty. -/
theorem replays_list (h : List.Forall₂ (Scribes n) ds ds') (hne : ds ≠ []) :
    Replays n (.list ds) (.list ds') := by
  intro s hs
  obtain ⟨hline, hfresh⟩ := Sheet.adds_startLine n (.inl hs.indented)
  obtain ⟨out, t, toks, layouts, hlexes, hparses, hmeans, hlegible, hadds, hinked⟩ :=
    replaysItems h hne _ hfresh
  have hnode : Sheet.node .value (some n) (.list ds) s = Sheet.items n ds (s.startLine n) := by
    obtain ⟨d, ds, rfl⟩ := List.exists_cons_of_ne_nil hne
    rw [← items_startLine hs, Sheet.node]
    simp [Sheet.itemIndent, hs.indented]
  rw [hnode]
  exact ⟨_, _, _, hlexes.lexes, hparses.parses, means_sequence hmeans,
    (legible_lineAt n).append hlegible, hline.trans hadds, hinked⟩

/-! ## Mappings -/

theorem pairs_startLine (h : s.Inked) (p : Datum × Datum) (ps : List (Datum × Datum)) :
    Sheet.pairs n (p :: ps) s = Sheet.pairs n (p :: ps) (s.startLine n) := by
  have hfresh := (Sheet.adds_startLine n (.inl h.indented)).2
  rw [Sheet.pairs, Sheet.pairs, hfresh.startLine_eq]

theorem Label.isShortKey_eq (h : Label key.toList) : isShortKey (.text key) = true := by
  have hbreaks : key.toList.any isWrittenBreak = false := by
    rw [List.any_eq_false]
    intro c hc
    rw [(unquoted_of_styleOf h.style).1.breaks c hc]
    exact Bool.false_ne_true
  have hempty : key.toList.isEmpty = false := List.isEmpty_eq_false_iff.mpr h.nonempty
  have hshort := h.short
  change (!key.toList.isEmpty && !key.toList.any isWrittenBreak &&
    decide (5 + key.toList.length < shortKeyLimit)) = true
  rw [hempty, hbreaks, decide_eq_true (by rw [shortKeyLimit]; omega)]
  rfl

/-- A key and its colon at the start of a line. -/
theorem Label.adds (h : Label key.toList) (hs : s.Fresh n) :
    s.Adds (key.toList ++ [':']) ((Sheet.node .key (some n) (.text key) s).indicator [':'] false) ∧
      ((Sheet.node .key (some n) (.text key) s).indicator [':'] false).Inked := by
  have hunquoted := (unquoted_of_styleOf h.style).1
  have hpieces : Piece.ofText key.toList = [.run key.toList] :=
    Piece.ofText_eq_run h.nonempty fun c hc =>
      ⟨h.ne hc (by decide), h.ne hc (by decide), hunquoted.breaks c hc⟩
  -- a key starts its line and is written in one piece
  have hnode : Sheet.node .key (some n) (.text key) s =
      ({ s with spaced := false, indented := false } : Sheet).write key.toList := by
    have hempty : key.toList.isEmpty = false := List.isEmpty_eq_false_iff.mpr h.nonempty
    rw [Sheet.node]
    · have hstyle : leafStyle (.text key) = .plain := h.style
      have htext : leafText (.text key) = key.toList := rfl
      rw [Sheet.scalar]
      simp [hstyle, htext, Sheet.plain, hempty, hs.spaced, hpieces, Sheet.pieces]
    all_goals simp
  have hkey : s.Adds key.toList (Sheet.node .key (some n) (.text key) s) := by
    rw [hnode]
    exact ⟨(Sheet.adds_write s key.toList).text, id⟩
  have hcolon :=
    Sheet.adds_indicator (Sheet.node .key (some n) (.text key) s) [':'] false false false
  rw [Bool.not_false, Bool.or_true, if_pos rfl] at hcolon
  exact ⟨hkey.trans hcolon, rfl, Bool.and_false _⟩

theorem Label.legible (h : Label key.toList) : Legible (key.toList ++ [':']) :=
  (legible_of_isSpecial (unquoted_of_styleOf h.style).1.special).append (.cons (by decide) .nil)

/-- The node of a key is a text. -/
theorem Label.scalarNode_eq (h : Label key.toList) :
    scalarNode none true (String.ofList key.toList) = .scalar .str key := by
  simp [scalarNode, (unquoted_of_styleOf h.style).2]

theorem replaysPairs (h : List.Forall₂ (ReplaysPair n) ps ps') (hne : ps ≠ []) :
    ReplaysPairs n ps ps' := by
  induction h with
  | nil => exact absurd rfl hne
  | @cons p p' ps ps' hp h ih =>
      intro s hs
      obtain ⟨k, v⟩ := p
      obtain ⟨k', v'⟩ := p'
      obtain ⟨key, hlabel, rfl, rfl, hv⟩ := hp
      obtain ⟨hkey, hcolon⟩ := hlabel.adds hs
      obtain ⟨out, toks, layout, hlexes, hparses, hmeans, hlegible, hadds, hinked⟩ := hv _ hcolon
      have hpair := hkey.trans hadds
      have hmeansPair : MeansPair (.single (.scalar .str key), layout) (.text key, v') :=
        ⟨key, rfl, rfl, hmeans⟩
      have hlegible' := (Label.legible hlabel).append hlegible
      rw [Sheet.pairs, hs.startLine_eq, hlabel.isShortKey_eq, if_pos rfl]
      rw [List.append_assoc] at hpair hlegible'
      -- after the last pair comes whatever the mapping is in, else a line with the next key
      cases h with
      | nil =>
          rw [Sheet.pairs]
          have hparsed := parsesPairs_nil.cons hparses (String.ofList key.toList)
          rw [hlabel.scalarNode_eq, List.append_nil] at hparsed
          exact ⟨_, _, _, lexesPairs_one hlabel hlexes, hparsed, .cons hmeansPair .nil, hlegible',
            hpair, hinked⟩
      | @cons q q' ps ps' hq h =>
          obtain ⟨hline, hfresh⟩ := Sheet.adds_startLine n (.inl hinked.indented)
          obtain ⟨rest, toks', pairs, hlexes', hparses', hpairs, hrest, hadds', hinked'⟩ :=
            ih nofun _ hfresh
          rw [← pairs_startLine hinked] at hadds' hinked'
          have hparsed := hparses'.cons hparses (String.ofList key.toList)
          rw [hlabel.scalarNode_eq] at hparsed
          have hall := hpair.trans (hline.trans hadds')
          have hlegible'' := hlegible'.append ((legible_lineAt n).append hrest)
          rw [List.append_assoc, List.append_assoc] at hall hlegible''
          exact ⟨_, _, _, hlexes'.cons hlabel hlexes, hparsed, .cons hmeansPair hpairs, hlegible'',
            hall, hinked'⟩

/-- A mapping that is not empty, two columns deeper than its key. -/
theorem replays_map (h : List.Forall₂ (ReplaysPair (n + 2)) ps ps') (hne : ps ≠ [])
    (hdistinct : (ps'.map (·.1)).Nodup) : Replays n (.map ps) (.map ps') := by
  intro s hs
  obtain ⟨hline, hfresh⟩ := Sheet.adds_startLine (n + 2) (.inl hs.indented)
  obtain ⟨out, toks, pairs, hlexes, hparses, hmeans, hlegible, hadds, hinked⟩ :=
    replaysPairs h hne _ hfresh
  have hnode : Sheet.node .value (some n) (.map ps) s =
      Sheet.pairs (n + 2) ps (s.startLine (n + 2)) := by
    obtain ⟨p, ps, rfl⟩ := List.exists_cons_of_ne_nil hne
    rw [← pairs_startLine hs, Sheet.node]
    rfl
  rw [hnode]
  exact ⟨_, _, _, hlexes.lexes, hparses.parses, means_mapping hmeans hdistinct,
    (legible_lineAt _).append hlegible, hline.trans hadds, hinked⟩

/-! ## Documents -/

/-- A mapping that is not empty, as a document. -/
theorem load_dump (h : List.Forall₂ (ReplaysPair 0) ps ps') (hne : ps ≠ [])
    (hdistinct : (ps'.map (·.1)).Nodup) :
    Legible (dump (.map ps)) ∧ load (String.ofList (dump (.map ps))) = .ok (.map ps') := by
  obtain ⟨out, toks, pairs, hlexes, hparses, hmeans, hlegible, hadds, hinked⟩ :=
    replaysPairs h hne {} ⟨rfl, rfl, rfl⟩
  have hnode : Sheet.node .root none (.map ps) {} = Sheet.pairs 0 ps {} := by
    obtain ⟨p, ps, rfl⟩ := List.exists_cons_of_ne_nil hne
    rw [Sheet.node]
    rfl
  obtain ⟨hline, -⟩ := Sheet.adds_startLine 0 (.inl hinked.indented)
  have hall := hadds.trans hline
  -- a document that is a mapping ends with its last line, with no mark behind it
  have hdump : dump (.map ps) = out ++ ['\n'] := by
    rw [dump, hnode, Sheet.finish]
    rw [hall.openEnded rfl, if_neg Bool.false_ne_true, hall.text]
    rfl
  have hlegible' : Legible (out ++ ['\n']) := hlegible.append (.cons (by decide) .nil)
  have hallowed : (out ++ ['\n']).all isAllowed = true :=
    List.all_eq_true.mpr fun ch hch => (hlegible' ch hch).1
  rw [hdump]
  refine ⟨hlegible', ?_⟩
  rw [load, String.toList_ofList, if_pos hallowed, hlexes.tokens_eq, hparses.ofTokens_eq]
  exact datum_mapping hmeans hdistinct

end LoopPainter.Yaml
