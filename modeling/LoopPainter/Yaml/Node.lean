import LoopPainter.Yaml.Tag
import LoopPainter.Yaml.Token

/-!
# YAML nodes

The nodes that the tokens of a text describe, with every tag worked out.  Nodes are
numbered in the order in which they start, and a collection gives its parts by their
numbers.  An alias is the number of the node that it names, which may be a collection
that the alias itself is inside of.  A text holds one document or none; more than one is
malformed.

The readers follow the grammar with one token of look-ahead.  A level of nesting is read
by at most three of them, one inside the other, and has a token of its own; so three times
the number of tokens is enough fuel.
-/

namespace LoopPainter.Yaml

/-- A scalar, a sequence or a mapping with its tag. -/
inductive Node where
  | scalar (tag : Tag) (text : String)
  | sequence (tag : Tag) (items : List Nat)
  | mapping (tag : Tag) (pairs : List (Nat × Nat))
  deriving DecidableEq

namespace Node

/-- The tag of a node. -/
def tag : Node → Tag
  | scalar t _ => t
  | sequence t _ => t
  | mapping t _ => t

/-- The pairs of a node, which are none unless it is a mapping. -/
def pairs : Node → List (Nat × Nat)
  | mapping _ pairs => pairs
  | _ => []

/-- Whether a node is a scalar. -/
def isScalar : Node → Bool
  | scalar _ _ => true
  | _ => false

/-- A node with another tag. -/
def withTag (t : Tag) : Node → Node
  | scalar _ text => scalar t text
  | sequence _ items => sequence t items
  | mapping _ pairs => mapping t pairs

/-- The tokens that are left and the nodes that have been read, at least in part. -/
structure Source where
  tokens : List Token
  nodes : List Node := []
  /-- The numbers of the nodes that have a name. -/
  anchors : List (String × Nat) := []
  /-- The tag handles and what they stand for. -/
  handles : List (String × String) := [("!", "!"), ("!!", Tag.standard)]

/-- A reader of nodes. -/
abbrev Reader (α : Type) : Type :=
  StateT Source (Except Fault) α

/-- The next token, which stays. -/
def peek : Reader Token := do
  match (← get).tokens with
  | .broken fault :: _ => throw fault
  | t :: _ => return t
  | [] => throw .malformed

/-- Drop the next token. -/
def drop : Reader Unit :=
  modify fun s => { s with tokens := s.tokens.tail }

/-- Drop the next token if it is the given one, and say whether it was. -/
def accept (t : Token) : Reader Bool := do
  if (← peek) = t then
    drop
    return true
  else return false

/-- Drop the given token, which must come next. -/
def expect (t : Token) : Reader Unit := do
  if !(← accept t) then throw .malformed

/-- The anchor and the tag before a node, in either order. -/
structure Properties where
  anchor : Option String := none
  tag : Option (Option String × String) := none

/-- Read the properties of a node. -/
def properties : Reader Properties := do
  match ← peek with
  | .anchor name =>
    drop
    match ← peek with
    | .tag handle suffix =>
      drop
      return { anchor := name, tag := some (handle, suffix) }
    | _ => return { anchor := name }
  | .tag handle suffix =>
    drop
    match ← peek with
    | .anchor name =>
      drop
      return { anchor := name, tag := some (handle, suffix) }
    | _ => return { tag := some (handle, suffix) }
  | _ => return {}

/-- The full name of a tag, if there is one other than the bare exclamation mark, which
leaves the choice to the form of the node. -/
def tagName? (p : Properties) : Reader (Option String) := do
  match p.tag with
  | none => return none
  | some (handle, suffix) =>
    let name ←
      match handle with
      | none => pure suffix
      | some h =>
        match (← get).handles.lookup h with
        | some start => pure (start ++ suffix)
        | none => throw .malformed
    return if name == "!" then none else some name

/-- Add a node, under its name if it has one, which must be new; the answer is its number. -/
def add (p : Properties) (n : Node) : Reader Nat := do
  let s ← get
  let number := s.nodes.length
  match p.anchor with
  | none => set { s with nodes := s.nodes ++ [n] }
  | some name =>
    if (s.anchors.lookup name).isSome then throw .malformed
    set { s with nodes := s.nodes ++ [n], anchors := (name, number) :: s.anchors }
  return number

/-- Put a node in the place of the one with a number. -/
def replace (number : Nat) (n : Node) : Reader Unit :=
  modify fun s => { s with nodes := s.nodes.set number n }

/-- Add a collection.  It has its number, and its name, before its parts are read, so that
they can name it. -/
def collection {α : Type} (p : Properties) (ofParts : List α → Node) (parts : Reader (List α)) :
    Reader Nat := do
  let number ← add p (ofParts [])
  replace number (ofParts (← parts))
  return number

/-- Add the scalar that stands where a node is left out. -/
def absent : Reader Nat :=
  add {} (.scalar .null "")

/-- A scalar node: with the given tag, or with the one that its form has.  Only plain
scalars and those with a bare exclamation mark have a form. -/
def scalarNode (name : Option String) (byForm : Bool) (text : String) : Node :=
  match name with
  | some n => .scalar (.ofName n) text
  | none => .scalar (if byForm then .ofPlain text.toList else .str) text

mutual

/-- Read a node.  Block collections are recognized where `block` holds, and a sequence that
is not indented where `indentless` does. -/
def node (block indentless : Bool) : Nat → Reader Nat
  | 0 => throw .malformed
  | fuel + 1 => do
    if let .alias name := ← peek then
      drop
      match (← get).anchors.lookup name with
      | some number => return number
      | none => throw .malformed
    let p ← properties
    let name ← tagName? p
    let sequence := Node.sequence ((name.map Tag.ofName).getD .seq)
    let mapping := Node.mapping ((name.map Tag.ofName).getD .map)
    match ← peek with
    | .scalar text plain =>
      drop
      add p (scalarNode name (p.tag.isSome || plain) text)
    | .blockEntry =>
      if indentless then collection p sequence (indentlessItems fuel)
      else bare p name
    | .flowSequenceStart =>
      drop
      collection p sequence (flowItems true fuel)
    | .flowMappingStart =>
      drop
      collection p mapping (flowPairs true fuel)
    | .blockSequenceStart =>
      if block then
        drop
        collection p sequence (blockItems fuel)
      else bare p name
    | .blockMappingStart =>
      if block then
        drop
        collection p mapping (blockPairs fuel)
      else bare p name
    | _ => bare p name
where
  /-- A node that consists of its properties alone. -/
  bare (p : Properties) (name : Option String) : Reader Nat := do
    if p.anchor.isNone && p.tag.isNone then throw .malformed
    add p (scalarNode name true "")

/-- The entries of a block sequence, with its end. -/
def blockItems : Nat → Reader (List Nat)
  | 0 => throw .malformed
  | fuel + 1 => do
    if ← accept .blockEntry then
      let item ←
        match ← peek with
        | .blockEntry | .blockEnd => absent
        | _ => node true false fuel
      return item :: (← blockItems fuel)
    else
      expect .blockEnd
      return []

/-- The entries of a sequence that is not indented deeper than its key. -/
def indentlessItems : Nat → Reader (List Nat)
  | 0 => throw .malformed
  | fuel + 1 => do
    if ← accept .blockEntry then
      let item ←
        match ← peek with
        | .blockEntry | .key | .value | .blockEnd => absent
        | _ => node true false fuel
      return item :: (← indentlessItems fuel)
    else return []

/-- The pairs of a block mapping, with its end. -/
def blockPairs : Nat → Reader (List (Nat × Nat))
  | 0 => throw .malformed
  | fuel + 1 => do
    if ← accept .key then
      let key ← blockPart fuel
      let value ← if ← accept .value then blockPart fuel else absent
      return (key, value) :: (← blockPairs fuel)
    else
      expect .blockEnd
      return []

/-- A key or value of a block mapping, which may be left out. -/
def blockPart : Nat → Reader Nat
  | 0 => throw .malformed
  | fuel + 1 => do
    match ← peek with
    | .key | .value | .blockEnd => absent
    | _ => node true true fuel

/-- The entries of a flow sequence, with its end.  An entry with a key mark is a mapping of
one pair. -/
def flowItems (first : Bool) : Nat → Reader (List Nat)
  | 0 => throw .malformed
  | fuel + 1 => do
    if ← accept .flowSequenceEnd then return []
    if !first then expect .flowEntry
    if ← accept .flowSequenceEnd then return []
    let item ←
      if ← accept .key then
        collection {} (.mapping .map) do
          let key ← flowPart .flowSequenceEnd true fuel
          let value ← if ← accept .value then flowPart .flowSequenceEnd false fuel else absent
          return [(key, value)]
      else node false false fuel
    return item :: (← flowItems false fuel)

/-- The pairs of a flow mapping, with its end. -/
def flowPairs (first : Bool) : Nat → Reader (List (Nat × Nat))
  | 0 => throw .malformed
  | fuel + 1 => do
    if ← accept .flowMappingEnd then return []
    if !first then expect .flowEntry
    if ← accept .flowMappingEnd then return []
    let pair ←
      if ← accept .key then
        let key ← flowPart .flowMappingEnd true fuel
        let value ← if ← accept .value then flowPart .flowMappingEnd false fuel else absent
        pure (key, value)
      else
        let key ← node false false fuel
        pure (key, ← absent)
    return pair :: (← flowPairs false fuel)

/-- A key or value inside a flow collection, which may be left out. -/
def flowPart (ending : Token) (isKey : Bool) : Nat → Reader Nat
  | 0 => throw .malformed
  | fuel + 1 => do
    let t ← peek
    if t = .flowEntry || t = ending || (isKey && t = .value) then absent
    else node false false fuel

end

/-! ## Documents -/

/-- Read the directives before a document; the versions `1.x` are understood. -/
def directives : Nat → (versioned : Bool) → List (String × String) → Reader Unit
  | 0, _, _ => throw .malformed
  | fuel + 1, versioned, handles => do
    match ← peek with
    | .versionDirective major =>
      drop
      if versioned || major != 1 then throw .malformed
      directives fuel true handles
    | .tagDirective handle start =>
      drop
      if (handles.lookup handle).isSome then throw .malformed
      directives fuel versioned ((handle, start) :: handles)
    | .otherDirective =>
      drop
      directives fuel versioned handles
    | _ => modify fun s => { s with handles := handles ++ s.handles }

/-- Drop the marks that end a document. -/
def dropEnds : Nat → Reader Unit
  | 0 => return ()
  | fuel + 1 => do
    if ← accept .documentEnd then dropEnds fuel

/-- The root of a document whose start has been read. -/
def root (fuel : Nat) : Reader Nat := do
  match ← peek with
  | .versionDirective _ | .tagDirective _ _ | .otherDirective | .documentStart | .documentEnd
  | .streamEnd => absent
  | _ => node true false fuel

/-- Read the only document of a text, if there is one; the answer is the number of its root. -/
def document (fuel : Nat) : Reader (Option Nat) := do
  match ← peek with
  | .streamEnd => return none
  | .versionDirective _ | .tagDirective _ _ | .otherDirective | .documentStart =>
    directives fuel false []
    expect .documentStart
    let n ← root fuel
    finish n
  | _ =>
    let n ← node true false fuel
    finish n
where
  finish (n : Nat) : Reader (Option Nat) := do
    dropEnds fuel
    expect .streamEnd
    return some n

end Node

/-- The nodes of a document. -/
structure Graph where
  nodes : List Node
  /-- The number of the node that all others are inside of. -/
  root : Nat

/-- The document that a list of tokens describes, if there is one. -/
def Graph.ofTokens (tokens : List Token) : Reads (Option Graph) := do
  let (root, source) ← Node.document (3 * tokens.length + 3) { tokens := tokens }
  return root.map fun n => ⟨source.nodes, n⟩

end LoopPainter.Yaml
