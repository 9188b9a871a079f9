import LoopPainter.Yaml.Node
import LoopPainter.Yaml.Value

/-!
# The data of a YAML document

The value of every node is made once, and an alias is the value of the node that it names.
A scalar has its value at once.  A collection is empty when it is made and takes its place
in a queue; when its turn comes, the values of its parts are made and it is filled with
them.  So a collection can hold itself, directly or further in.  The first fault that comes
up is the one that counts.

A merge key in a mapping stands for the pairs of the mapping or mappings that it names,
which come first and give way to the mapping's own.  Working merge keys out takes them away
for good, also from the mappings that they name; this is why a mapping can name itself.

In the end the value is read off as a datum.  Where a collection comes up inside itself, it
is not opened again.
-/

namespace LoopPainter.Yaml

/-- The value of a node: a datum, or the collection with the node's number. -/
inductive Part where
  | leaf (d : Datum)
  | collection (n : Nat)

/-- What a collection holds. -/
inductive Contents where
  | list (items : List Part)
  | tuples (items : List (Part × Part))
  | set (keys : List Datum)
  | map (pairs : List (Datum × Part))

/-- The nodes as they have become, and the values made so far. -/
structure Builder where
  nodes : List Node
  /-- The values of nodes, by their numbers. -/
  made : List (Nat × Part) := []
  /-- The collections that are still empty, in the order in which they were made. -/
  waiting : List Nat := []
  filled : List (Nat × Contents) := []

/-- A step of building. -/
abbrev Builds (α : Type) : Type :=
  StateT Builder (Except Fault) α

namespace Builder

/-- The node with a number. -/
def node (n : Nat) : Builds Node := do
  match (← get).nodes[n]? with
  | some v => return v
  | none => throw .malformed

/-- Put a node in the place of the one with a number. -/
def setNode (n : Nat) (v : Node) : Builds Unit :=
  modify fun b => { b with nodes := b.nodes.set n v }

/-- The pairs of a mapping. -/
def pairsOf (n : Nat) : Builds (List (Nat × Nat)) := do
  match ← node n with
  | .mapping _ pairs => return pairs
  | _ => throw .malformed

/-- Give a mapping other pairs. -/
def setPairs (n : Nat) (pairs : List (Nat × Nat)) : Builds Unit := do
  setNode n (.mapping (← node n).tag pairs)

/-! ## Merge keys -/

/-- Whether the node with a number has a tag. -/
def hasTag (nodes : List Node) (tag : Tag) (n : Nat) : Bool :=
  (nodes[n]?.map Node.tag) == some tag

/-- The number of merge keys in all mappings. -/
def mergeKeys (nodes : List Node) : Nat :=
  (nodes.flatMap Node.pairs).countP fun (k, _) => hasTag nodes .merge k

/-- The key that stands for the default value is an ordinary key of a mapping. -/
def plainKey (k : Nat) : Builds Unit := do
  let key ← node k
  if key.tag = .value then setNode k (key.withTag .str)

/-- Work out the merge keys of a mapping from the pair at `start` on; `merged` holds the pairs
that those before stand for.  Every merge key goes before the mappings that it names are worked
out, so there are at least as many merge keys as mappings at work. -/
def flattenFrom : Nat → (n start : Nat) → (merged : List (Nat × Nat)) → Builds Unit
  | 0, _, _, _ => throw .tooDeep
  | fuel + 1, n, start, merged => do
    let pairs ← pairsOf n
    let nodes := (← get).nodes
    let own := (pairs.drop start).takeWhile fun (k, _) => !hasTag nodes .merge k
    own.forM fun (k, _) => plainKey k
    let next := start + own.length
    match pairs[next]? with
    | none => if !merged.isEmpty then setPairs n (merged ++ pairs)
    | some (_, value) =>
      setPairs n (pairs.eraseIdx next)
      let flattened (m : Nat) : Builds (List (Nat × Nat)) := do
        flattenFrom fuel m 0 []
        pairsOf m
      let named ←
        match ← node value with
        | .scalar _ _ => throw .malformed
        -- of several mappings the earlier ones come last, and so take precedence
        | .sequence _ items => do pure (← items.mapM flattened).reverse.flatten
        | .mapping _ _ => flattened value
      flattenFrom fuel n next (merged ++ named)

/-- Work out the merge keys of a mapping. -/
def flatten (n : Nat) : Builds Unit := do
  flattenFrom (mergeKeys (← get).nodes + 1) n 0 []

/-! ## Values -/

/-- The scalar text of a node.  A mapping has the text of its default key, if it has one.  One more
than the number of nodes is enough fuel unless a mapping is its own default. -/
def scalarText (nodes : List Node) : Nat → (n : Nat) → Reads String
  | 0, _ => .error .tooDeep
  | fuel + 1, n =>
    match nodes[n]? with
    | some (.scalar _ s) => .ok s
    | some (.mapping _ pairs) =>
      match pairs.find? fun (k, _) => hasTag nodes .value k with
      | some (_, value) => scalarText nodes fuel value
      | none => malformed
    | _ => malformed

/-- The text from which a node with a tag is read.  A date is never read from a default key. -/
def taggedText (nodes : List Node) (tag : Tag) (n : Nat) : Reads String := do
  let text ← scalarText nodes (nodes.length + 1) n
  if tag = .timestamp && !nodes[n]?.any Node.isScalar then throw .notAScalar
  return text

/-- The datum of a node with the tag of a scalar. -/
def scalarDatum (nodes : List Node) (tag : Tag) (n : Nat) : Reads Datum :=
  match scalarReader? tag with
  | some read => taggedText nodes tag n >>= read
  | none => malformed

/-- Make the value of a node. -/
def make (n : Nat) : Builds Part := do
  let b ← get
  let tag := (← node n).tag
  if tag.isCollection then
    set { b with made := (n, .collection n) :: b.made, waiting := b.waiting ++ [n] }
    return .collection n
  else
    let d ← scalarDatum b.nodes tag n
    set { b with made := (n, .leaf d) :: b.made }
    return .leaf d

/-- The value of a node, made if there is none yet. -/
def value (n : Nat) : Builds Part := do
  match (← get).made.lookup n with
  | some part => return part
  | none => make n

/-- The key and value of a pair; a key must not be a collection. -/
def pairValue (p : Nat × Nat) : Builds (Datum × Part) := do
  match ← value p.1 with
  | .leaf key => return (key, ← value p.2)
  | .collection _ => throw .malformed

/-- The keys and values of a mapping without merge keys. -/
def mappingValues (n : Nat) : Builds (List (Datum × Part)) := do
  flatten n
  (← pairsOf n).mapM pairValue

/-- The key and value of a mapping of one pair; this key may be anything. -/
def tupleValue (n : Nat) : Builds (Part × Part) := do
  match ← pairsOf n with
  | [(k, v)] => return (← value k, ← value v)
  | _ => throw .malformed

/-- What the collection with a number holds. -/
def contents (n : Nat) : Builds Contents := do
  match ← node n with
  | .sequence .seq items => return .list (← items.mapM value)
  | .sequence .omap items | .sequence .pairs items => return .tuples (← items.mapM tupleValue)
  | .mapping .set _ => return .set ((← mappingValues n).map (·.1))
  | .mapping .map _ => return .map (← mappingValues n)
  | _ => throw .malformed

/-- Fill the collections that wait, and those that are made on the way.  Each waits once, so the
number of nodes is enough fuel. -/
def fillAll : Nat → Builds Unit
  | 0 => return ()
  | fuel + 1 => do
    match (← get).waiting with
    | [] => return ()
    | n :: waiting =>
      modify fun b => { b with waiting := waiting }
      let c ← contents n
      modify fun b => { b with filled := (n, c) :: b.filled }
      fillAll fuel

end Builder

/-! ## Data -/

/-- Put the values of keys into a mapping, in order. -/
def putAll (pairs : List (Datum × Datum)) : List (Datum × Datum) :=
  pairs.foldl (fun acc (k, v) => Datum.putPair k v acc) []

/-- The datum of a collection, from those of its parts. -/
def Contents.datum (ofPart : Part → Datum) : Contents → Datum
  | list items => .list (items.map ofPart)
  | tuples items => .list (items.map fun (k, v) => .tuple [ofPart k, ofPart v])
  | set keys => .set ((putAll (keys.map fun k => (k, .null))).map (·.1))
  | map pairs => .map (putAll (pairs.map fun (k, v) => (k, ofPart v)))

/-- Whether a collection is a mapping from keys to values. -/
def Contents.isMap : Contents → Bool
  | map _ => true
  | _ => false

/-- The datum of a part inside the collections `outer`, the innermost first.  All of those are
different, so the number of nodes is enough fuel. -/
def partDatum (filled : List (Nat × Contents)) : Nat → (outer : List Nat) → Part → Datum
  | _, _, .leaf d => d
  | fuel, outer, .collection n =>
    match filled.lookup n with
    | none => .null
    | some c =>
      match outer.idxOf? n, fuel with
      | some between, _ => .enclosing c.isMap between
      | none, 0 => .null
      | none, fuel + 1 => c.datum (partDatum filled fuel (n :: outer))

/-- The datum of the whole document.  Its parts are opened each on its own, as if nothing were
around them. -/
def Builder.datum (b : Builder) : Part → Datum
  | .leaf d => d
  | .collection n =>
    match b.filled.lookup n with
    | none => .null
    | some c => c.datum (partDatum b.filled b.nodes.length [])

/-- The datum of a document. -/
def Graph.datum (g : Graph) : Reads Datum := do
  let build : Builds Part := do
    let root ← Builder.value g.root
    Builder.fillAll g.nodes.length
    return root
  let (root, b) ← build { nodes := g.nodes }
  return b.datum root

/-- The datum of a text; an empty text is null. -/
def load (text : String) : Reads Datum :=
  let s := text.toList
  if s.all isAllowed then do
    match ← Graph.ofTokens (tokens s) with
    | none => return .null
    | some g => g.datum
  else malformed

end LoopPainter.Yaml
