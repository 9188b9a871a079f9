import LoopPainter.Proofs.Results
import LoopPainter.Yaml.Node

/-!
# The nodes of block mappings and lists

What a reader of nodes makes of the tokens of a scalar, of a list at its key's column and of a block
mapping.  The nodes that it adds depend only on how many there are already (`Layout`): a collection
comes first, then its parts one after the other.  Each statement holds with any tokens behind those
of the node, as far as they can follow one, and with enough fuel: a level of nesting takes two
steps, and has at least two tokens.
-/

namespace LoopPainter.Yaml

/-! ## Layouts -/

/-- The nodes that are added for a node when there are so many before them.  The first of them is
the node itself. -/
abbrev Layout : Type :=
  ℕ → List Node

namespace Layout

/-- A node without parts. -/
def single (v : Node) : Layout :=
  fun _ => [v]

/-- The numbers of items and the nodes that are added for them. -/
def items : List Layout → ℕ → List ℕ × List Node
  | [], _ => ([], [])
  | l :: ls, n =>
    let rest := items ls (n + (l n).length)
    (n :: rest.1, l n ++ rest.2)

/-- The numbers of keys and values and the nodes that are added for them. -/
def pairs : List (Layout × Layout) → ℕ → List (ℕ × ℕ) × List Node
  | [], _ => ([], [])
  | (k, v) :: ps, n =>
    let place := n + (k n).length
    let rest := pairs ps (place + (v place).length)
    ((n, place) :: rest.1, k n ++ v place ++ rest.2)

/-- A list. -/
def sequence (ls : List Layout) : Layout :=
  fun n => .sequence .seq (items ls (n + 1)).1 :: (items ls (n + 1)).2

/-- A mapping. -/
def mapping (ps : List (Layout × Layout)) : Layout :=
  fun n => .mapping .map (pairs ps (n + 1)).1 :: (pairs ps (n + 1)).2

end Layout

namespace Node

variable {src : Source} {t : Token} {ts toks vtoks rest : List Token} {text : String} {plain : Bool}
  {fuel : ℕ} {l : Layout} {ls : List Layout} {ps : List (Layout × Layout)}

/-! ## One token -/

theorem peek_eq (h : src.tokens = t :: ts) (ht : ∀ f, t ≠ .broken f) : peek src = .ok (t, src) := by
  cases t <;> simp_all [peek]

theorem drop_eq (h : src.tokens = t :: ts) : drop src = .ok ((), { src with tokens := ts }) := by
  simp [drop, h]

theorem accept_eq (h : src.tokens = t :: ts) (ht : ∀ f, t ≠ .broken f) :
    accept t src = .ok (true, { src with tokens := ts }) := by
  simp [accept, peek_eq h ht, drop_eq h]

theorem accept_ne {t' : Token} (h : src.tokens = t :: ts) (ht : ∀ f, t ≠ .broken f) (hne : t ≠ t') :
    accept t' src = .ok (false, src) := by
  simp [accept, peek_eq h ht, hne]

theorem expect_eq (h : src.tokens = t :: ts) (ht : ∀ f, t ≠ .broken f) :
    expect t src = .ok ((), { src with tokens := ts }) := by
  simp [expect, accept_eq h ht]

/-! ## Nodes -/

/-- The source when the tokens of a node have been passed and its nodes added. -/
def Source.after (src : Source) (rest : List Token) (added : List Node) : Source :=
  { src with tokens := rest, nodes := src.nodes ++ added }

theorem Source.after_after (src : Source) (rest rest' : List Token) (added added' : List Node) :
    (src.after rest added).after rest' added' = src.after rest' (added ++ added') := by
  simp [after]

theorem Source.length_after (src : Source) (rest : List Token) (added : List Node) :
    (src.after rest added).nodes.length = src.nodes.length + added.length :=
  List.length_append

/-- What can follow a value: the next key, or the end of the mapping. -/
def Follows (rest : List Token) : Prop :=
  ∃ t ts, rest = t :: ts ∧ (t = .key ∨ t = .blockEnd)

/-- The node of the tokens behind a key or its colon. -/
def Parses (toks : List Token) (l : Layout) : Prop :=
  ∀ (src : Source) (fuel : ℕ) (rest : List Token), src.tokens = toks ++ rest → Follows rest →
    2 * toks.length ≤ fuel →
    blockPart fuel src = .ok (src.nodes.length, src.after rest (l src.nodes.length))

/-- The nodes of the items of a list. -/
def ParsesItems (toks : List Token) (ls : List Layout) : Prop :=
  ∀ (src : Source) (fuel : ℕ) (rest : List Token), src.tokens = toks ++ rest → Follows rest →
    toks.length < 2 * fuel →
    indentlessItems fuel src =
      .ok ((Layout.items ls src.nodes.length).1,
        src.after rest (Layout.items ls src.nodes.length).2)

/-- The nodes of the pairs of a mapping, with its end. -/
structure ParsesPairs (toks : List Token) (ps : List (Layout × Layout)) : Prop where
  head : ∀ t ∈ toks.head?, t = .key
  eq : ∀ (src : Source) (fuel : ℕ) (rest : List Token), src.tokens = toks ++ .blockEnd :: rest →
    2 * toks.length < fuel →
    blockPairs fuel src =
      .ok ((Layout.pairs ps src.nodes.length).1,
        src.after rest (Layout.pairs ps src.nodes.length).2)

theorem add_eq (v : Node) (src : Source) :
    add {} v src = .ok (src.nodes.length, { src with nodes := src.nodes ++ [v] }) := by
  simp [add]

/-- A collection takes the place that was kept for it before its parts. -/
theorem collection_eq {α : Type} (ofParts : List α → Node) {read : Reader (List α)}
    {parts : List α} {added : List Node}
    (h : read (src.after src.tokens [ofParts []]) =
      .ok (parts, (src.after src.tokens [ofParts []]).after rest added)) :
    collection {} ofParts read src =
      .ok (src.nodes.length, src.after rest (ofParts parts :: added)) := by
  have hadd : add {} (ofParts []) src =
      .ok (src.nodes.length, src.after src.tokens [ofParts []]) := add_eq _ _
  simp only [collection, Stateful.bind_eq, hadd, h, replace, Stateful.modify_eq, Stateful.pure_eq]
  simp [Source.after]

theorem node_scalar (h : src.tokens = .scalar text plain :: ts) (block indentless : Bool) :
    node block indentless (fuel + 1) src =
      .ok (src.nodes.length, src.after ts [scalarNode none plain text]) := by
  simp [node, peek_eq h nofun, properties, tagName?, drop_eq h, add_eq, Source.after]

theorem blockPart_scalar (h : src.tokens = .scalar text plain :: ts) :
    blockPart (fuel + 2) src =
      .ok (src.nodes.length, src.after ts [scalarNode none plain text]) := by
  simp [blockPart, peek_eq h nofun, node_scalar h]

theorem parses_scalar (text : String) (plain : Bool) :
    Parses [.scalar text plain] (.single (scalarNode none plain text)) := by
  intro src fuel rest h _ hfuel
  have htwo : 2 ≤ fuel := hfuel
  obtain ⟨fuel, rfl⟩ : ∃ k, fuel = k + 2 := ⟨fuel - 2, by omega⟩
  exact blockPart_scalar h

/-! ## Lists -/

theorem parsesItems_nil : ParsesItems [] [] := by
  intro src fuel rest h hrest hfuel
  have hpos : 0 < 2 * fuel := hfuel
  obtain ⟨fuel, rfl⟩ : ∃ k, fuel = k + 1 := ⟨fuel - 1, by omega⟩
  obtain ⟨t, ts, rfl, ht⟩ := hrest
  have hnone : accept .blockEntry src = .ok (false, src) := by
    rcases ht with rfl | rfl <;> exact accept_ne h nofun nofun
  have hsrc : src = src.after (t :: ts) [] := by
    rw [Source.after, ← List.nil_append (t :: ts), ← h, List.append_nil]
  simp [indentlessItems, hnone, Layout.items, ← hsrc]

theorem ParsesItems.cons (h : ParsesItems toks ls) (text : String) (plain : Bool) :
    ParsesItems (.blockEntry :: .scalar text plain :: toks)
      (.single (scalarNode none plain text) :: ls) := by
  intro src fuel rest hsrc hrest hfuel
  simp only [List.length_cons] at hfuel
  obtain ⟨fuel, rfl⟩ : ∃ k, fuel = k + 2 := ⟨fuel - 2, by omega⟩
  have hentry := accept_eq (t := .blockEntry) hsrc nofun
  let item : Source := { src with tokens := .scalar text plain :: (toks ++ rest) }
  have hscalar : peek item = .ok (.scalar text plain, item) := peek_eq rfl nofun
  have hitem : node true false (fuel + 1) item =
      .ok (src.nodes.length, src.after (toks ++ rest) [scalarNode none plain text]) :=
    node_scalar rfl true false
  have hitems := h (src.after (toks ++ rest) [scalarNode none plain text]) (fuel + 1) rest rfl hrest
    (by omega)
  rw [Source.after_after, Source.length_after] at hitems
  rw [indentlessItems]
  simp [hentry, item, hscalar, hitem, hitems, Layout.items, Layout.single]

/-- A list with an item. -/
theorem ParsesItems.parses (h : ParsesItems (.blockEntry :: t :: toks) ls) :
    Parses (.blockEntry :: t :: toks) (.sequence ls) := by
  intro src fuel rest hsrc hrest hfuel
  simp only [List.length_cons] at hfuel
  obtain ⟨fuel, rfl⟩ : ∃ k, fuel = k + 2 := ⟨fuel - 2, by omega⟩
  have hpeek := peek_eq (t := .blockEntry) hsrc nofun
  have hitems := h (src.after src.tokens [.sequence .seq []]) fuel rest hsrc hrest
    (by simp only [List.length_cons]; omega)
  rw [Source.length_after] at hitems
  have hsequence := collection_eq (.sequence .seq) hitems
  simpa [blockPart, node, hpeek, properties, tagName?, Layout.sequence] using hsequence

/-! ## Mappings -/

theorem parsesPairs_nil : ParsesPairs [] [] := by
  refine ⟨nofun, fun src fuel rest h hfuel => ?_⟩
  have hpos : 0 < fuel := hfuel
  obtain ⟨fuel, rfl⟩ : ∃ k, fuel = k + 1 := ⟨fuel - 1, by omega⟩
  have hnone : accept .key src = .ok (false, src) := accept_ne h nofun nofun
  have hend := expect_eq (t := .blockEnd) h nofun
  simp [blockPairs, hnone, hend, Layout.pairs, Source.after]

theorem ParsesPairs.follows (h : ParsesPairs toks ps) (rest : List Token) :
    Follows (toks ++ .blockEnd :: rest) := by
  cases toks with
  | nil => exact ⟨_, _, rfl, .inr rfl⟩
  | cons t ts => exact ⟨_, _, rfl, .inl (h.head t rfl)⟩

theorem ParsesPairs.cons (h : ParsesPairs toks ps) (hv : Parses vtoks l) (key : String) :
    ParsesPairs (.key :: .scalar key true :: .value :: (vtoks ++ toks))
      ((.single (scalarNode none true key), l) :: ps) := by
  refine ⟨by rintro _ ⟨⟩; rfl, fun src fuel rest hsrc hfuel => ?_⟩
  simp only [List.length_cons, List.length_append] at hfuel
  obtain ⟨fuel, rfl⟩ : ∃ k, fuel = k + 3 := ⟨fuel - 3, by omega⟩
  let k := scalarNode none true key
  let value := vtoks ++ (toks ++ .blockEnd :: rest)
  have hkey := accept_eq (t := .key) hsrc nofun
  have hpart : blockPart (fuel + 2) { src with tokens := .scalar key true :: .value :: value } =
      .ok (src.nodes.length, src.after (.value :: value) [k]) := blockPart_scalar rfl
  have hcolon : accept .value (src.after (.value :: value) [k]) =
      .ok (true, src.after value [k]) := accept_eq rfl nofun
  have hvalue := hv (src.after value [k]) (fuel + 2) _ rfl (h.follows rest) (by omega)
  rw [Source.after_after, Source.length_after] at hvalue
  let added := k :: l (src.nodes.length + 1)
  have hpairs := h.eq (src.after (toks ++ .blockEnd :: rest) added) (fuel + 2) rest rfl (by omega)
  have hplace : src.nodes.length + added.length =
      src.nodes.length + 1 + (l (src.nodes.length + 1)).length := by
    rw [List.length_cons, Nat.add_assoc, Nat.add_comm 1]
  rw [Source.after_after, Source.length_after, hplace] at hpairs
  rw [blockPairs]
  simp [hkey, hpart, hcolon, hvalue, hpairs, Layout.pairs, Layout.single, k, value, added]

theorem ParsesPairs.node_eq (h : ParsesPairs toks ps) (indentless : Bool)
    (hsrc : src.tokens = .blockMappingStart :: (toks ++ .blockEnd :: rest))
    (hfuel : 2 * toks.length < fuel) :
    node true indentless (fuel + 1) src =
      .ok (src.nodes.length, src.after rest (Layout.mapping ps src.nodes.length)) := by
  have hpeek := peek_eq hsrc nofun
  have hdrop := drop_eq hsrc
  let inside : Source := { src with tokens := toks ++ .blockEnd :: rest }
  have hpairs := h.eq (inside.after inside.tokens [.mapping .map []]) fuel rest rfl hfuel
  rw [Source.length_after] at hpairs
  have hmapping := collection_eq (.mapping .map) hpairs
  simp only [node, properties, tagName?, Stateful.bind_eq, hpeek, hdrop, Stateful.pure_eq, if_true]
  exact hmapping

/-- A mapping, with the tokens of its start and its end. -/
theorem ParsesPairs.parses (h : ParsesPairs toks ps) :
    Parses (.blockMappingStart :: (toks ++ [.blockEnd])) (.mapping ps) := by
  intro src fuel rest hsrc _ hfuel
  simp only [List.length_cons, List.length_append] at hfuel
  obtain ⟨fuel, rfl⟩ : ∃ k, fuel = k + 2 := ⟨fuel - 2, by omega⟩
  rw [List.cons_append, List.append_assoc] at hsrc
  have hpeek := peek_eq hsrc nofun
  have hnode : node true true (fuel + 1) src = _ := h.node_eq true hsrc (by omega)
  simp [blockPart, hpeek, hnode]

/-- A document that is a mapping. -/
theorem ParsesPairs.ofTokens_eq (h : ParsesPairs toks ps) :
    Graph.ofTokens (.blockMappingStart :: (toks ++ [.blockEnd, .streamEnd])) =
      .ok (some ⟨Layout.mapping ps 0, 0⟩) := by
  let src : Source := { tokens := .blockMappingStart :: (toks ++ [.blockEnd, .streamEnd]) }
  let done : Source := src.after [.streamEnd] (Layout.mapping ps 0)
  have hpeek : peek src = .ok (.blockMappingStart, src) := peek_eq rfl nofun
  have hnode (fuel : ℕ) (hfuel : 2 * toks.length < fuel) :
      node true false (fuel + 1) src = .ok (0, done) := h.node_eq false rfl hfuel
  have hnone : accept .documentEnd done = .ok (false, done) := accept_ne rfl nofun nofun
  have hend : expect .streamEnd done = .ok ((), { done with tokens := [] }) := expect_eq rfl nofun
  have hdocument (fuel : ℕ) (hfuel : 2 * toks.length < fuel) :
      document (fuel + 1) src = .ok (some 0, { done with tokens := [] }) := by
    simp [document, document.finish, hpeek, hnode fuel hfuel, dropEnds, hnone, hend]
  have hlength : 3 * (.blockMappingStart :: (toks ++ [Token.blockEnd, .streamEnd])).length + 3 =
      (3 * toks.length + 11) + 1 := by
    simp
    omega
  rw [Graph.ofTokens, hlength, hdocument _ (by omega)]
  rfl

end Node

end LoopPainter.Yaml
