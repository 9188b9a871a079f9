import LoopPainter.Datum
import LoopPainter.Yaml.Layout

/-!
# Writing YAML

A datum is written in block style, two columns per level; a list inside a mapping is not
moved further in than its key.  Keys keep their order.  Empty lists and mappings are written
in brackets.

A key is followed by its colon on the same line if it is a scalar of one line that is short
enough (`isShortKey`).  Any other key is written after a question mark, and its value on a
line of its own.
-/

namespace LoopPainter.Yaml

/-- Where a node stands. -/
inductive Position where
  | root
  | item
  | key
  | value
  deriving DecidableEq, Repr

/-! ## Scalars -/

/-- Write `.0` before an exponent that follows a whole number, which the reader would take
for text. -/
def pointed (s : List Char) : List Char :=
  if s.contains '.' then s
  else
    match s.span (· != 'e') with
    | (front, []) => front
    | (front, exponent) => front ++ '.' :: '0' :: exponent

/-- The text of a floating-point number. -/
def floatText : Binary64 → List Char
  | .nan => ".nan".toList
  | .inf negative => (if negative then "-.inf" else ".inf").toList
  | x => pointed x.display

/-- The text of a scalar. -/
def leafText : Datum → List Char
  | .null => "null".toList
  | .bool b => (if b then "true" else "false").toList
  | .float x => floatText x
  | d => d.display

/-- The style of a scalar: that of its text where the text has to be read as text. -/
def leafStyle : Datum → Style
  | .null | .bool _ | .int _ | .float _ | .day _ | .moment _ => .plain
  | d => styleOf d.display

/-- The length of the short name of a datum's kind, such as `!!str`. -/
def tagLength : Datum → Nat
  | .null | .bool _ => 6
  | .float _ => 7
  | .day _ | .moment _ => 11
  | _ => 5

/-- The length that a short key stays below, the name of its kind included. -/
def shortKeyLimit : Nat := 128

/-- A key that fits on a line with its colon. -/
def isShortKey : Datum → Bool
  | .list items | .tuple items => items.isEmpty
  | .map pairs => pairs.isEmpty
  | d =>
    let text := leafText d
    !text.isEmpty && !text.any isWrittenBreak && tagLength d + text.length < shortKeyLimit

/-! ## Nodes -/

/-- The column of the block below a node. -/
def blockIndent : Option Nat → Nat
  | none => 0
  | some n => n + 2

/-- The column of a scalar's further lines. -/
def scalarIndent (indent : Option Nat) : Nat :=
  indent.getD 0 + 2

namespace Sheet

/-- Write a scalar. -/
def scalar (position : Position) (indent : Option Nat) (d : Datum) (s : Sheet) : Sheet :=
  let split := position != .key
  let column := scalarIndent indent
  match leafStyle d with
  | .plain => s.plain (position == .root) split column (leafText d)
  | .single => s.singleQuoted split column (leafText d)
  | .double => s.doubleQuoted split column (leafText d)

/-- Write a pair of brackets with nothing between them. -/
def emptyBrackets (s : Sheet) (left right : Char) : Sheet :=
  (s.indicator [left] true true).indicator [right] false

/-- The column of the items of a list.  Behind the colon of a key they stay at the key's
column. -/
def itemIndent (s : Sheet) (position : Position) (indent : Option Nat) : Nat :=
  if (position == .key || position == .value) && !s.indented then indent.getD 0
  else blockIndent indent

mutual

/-- Write a datum. -/
def node (position : Position) (indent : Option Nat) : Datum → Sheet → Sheet
  | .list xs, s =>
    if xs.isEmpty then s.emptyBrackets '[' ']' else items (s.itemIndent position indent) xs s
  | .tuple xs, s =>
    if xs.isEmpty then s.emptyBrackets '[' ']' else items (s.itemIndent position indent) xs s
  | .map ps, s =>
    if ps.isEmpty then s.emptyBrackets '\x7b' '\x7d' else pairs (blockIndent indent) ps s
  | d, s => s.scalar position indent d

/-- Write the items of a list. -/
def items (indent : Nat) : List Datum → Sheet → Sheet
  | [], s => s
  | x :: rest, s =>
    items indent rest
      (node .item (some indent) x ((s.startLine indent).indicator ['-'] true false true))

/-- Write the pairs of a mapping. -/
def pairs (indent : Nat) : List (Datum × Datum) → Sheet → Sheet
  | [], s => s
  | (k, v) :: rest, s =>
    let s := s.startLine indent
    let s :=
      if isShortKey k then (node .key (some indent) k s).indicator [':'] false
      else
        let s := node .value (some indent) k (s.indicator ['?'] true false true)
        (s.startLine indent).indicator [':'] true false true
    pairs indent rest (node .value (some indent) v s)

end

/-- End the document.  A plain scalar that is all of it could go on, so three dots follow
it. -/
def finish (s : Sheet) : Sheet :=
  let s := s.startLine 0
  if s.openEnded then (s.indicator ['.', '.', '.'] true).startLine 0 else s

end Sheet

/-- A datum as YAML text. -/
def dump (d : Datum) : List Char :=
  (Sheet.node .root none d {}).finish.text

end LoopPainter.Yaml
