import LoopPainter.Yaml.Cursor
import LoopPainter.Yaml.Fault

/-!
# Reading scalars

The four ways of writing a scalar: plain, between single or double quotes, and as a
block, literal or folded.  Each reader starts at the scalar and gives its text and the
position after it.

In plain and quoted scalars a single line break counts as a space, and more than one as
one break less; a break that is a line or paragraph separator is kept.  A line that
starts with a document mark ends a plain scalar and is an error inside quotes.
-/

namespace LoopPainter.Yaml

/-- A computation that finds the text at fault, or not. -/
abbrev Reads (α : Type) : Type :=
  Except Fault α

/-- The text at fault. -/
def malformed {α : Type} : Reads α :=
  .error .malformed

/-- Breaks after a first break: a single line feed alone counts as a space. -/
def foldBreaks (first : List Char) (breaks : List Char) : List Char :=
  if first != ['\n'] then first ++ breaks
  else if breaks.isEmpty then [' ']
  else breaks

/-! ## Plain scalars -/

/-- Characters that end a plain scalar inside a flow collection. -/
def isFlowEnd (c : Char) : Bool :=
  c == ',' || c == '?' || c == '[' || c == ']' || c == '\x7b' || c == '\x7d'

/-- Characters that end a plain scalar inside a flow collection when they follow a colon. -/
def isAfterFlowColon (c : Char) : Bool :=
  c == ',' || c == '[' || c == ']' || c == '\x7b' || c == '\x7d'

/-- The number of characters of a plain scalar before the next space or the end. -/
def plainRun (inFlow : Bool) : List Char → Nat
  | [] => 0
  | c :: rest =>
    let after := rest.headD '\x00'
    if isGap c || (c == ':' && (isGap after || (inFlow && isAfterFlowColon after))) ||
        (inFlow && isFlowEnd c) then 0
    else plainRun inFlow rest + 1

/-- Breaks and the spaces that start lines, up to the next run or document mark; the answer
says whether it was a mark. -/
def plainBreaks : Nat → Cursor → Bool × List Char × Cursor
  | 0, c => (false, [], c)
  | fuel + 1, c =>
    if c.peek == ' ' then plainBreaks fuel c.next
    else if isBreak c.peek then
      let (b, c) := c.lineBreak
      if c.atDocumentMark then (true, b, c)
      else
        let (marked, bs, c) := plainBreaks fuel c
        (marked, b ++ bs, c)
    else (false, [], c)

/-- What separates two runs of a plain scalar; nothing if a document mark comes up. -/
structure PlainGap where
  text : List Char
  after : Cursor
  /-- A line has ended. -/
  broken : Bool

/-- The separation after a run. -/
def plainGap (c : Cursor) : PlainGap :=
  let (spaces, c) := c.span (· == ' ')
  if isBreak c.peek then
    let (b, c) := c.lineBreak
    if c.atDocumentMark then ⟨[], c, true⟩
    else
      let (marked, bs, c) := plainBreaks c.fuel c
      ⟨if marked then [] else foldBreaks b bs, c, true⟩
  else ⟨spaces, c, false⟩

/-- A scalar that has been read. -/
structure Scalar where
  text : List Char
  after : Cursor
  /-- A line has ended after or inside it, so that a key may follow. -/
  broken : Bool := false

/-- The runs of a plain scalar from a position on; `gap` is what separates the next run from
those before it. -/
def plainRuns (inFlow : Bool) (indent : Nat) :
    Nat → (done gap : List Char) → (broken : Bool) → Cursor → Scalar
  | 0, done, _, broken, c => ⟨done, c, broken⟩
  | fuel + 1, done, gap, broken, c =>
    let n := if c.peek == '#' then 0 else plainRun inFlow c.rest
    if n = 0 then ⟨done, c, broken⟩
    else
      let done := done ++ gap ++ c.rest.take n
      let g := plainGap (Cursor.advance n c)
      if g.text.isEmpty || g.after.peek == '#' || (!inFlow && g.after.column < indent) then
        ⟨done, g.after, g.broken⟩
      else plainRuns inFlow indent fuel done g.text g.broken g.after

/-- A plain scalar.  In block context its lines are indented by at least `indent`. -/
def plainScalar (inFlow : Bool) (indent : Nat) (c : Cursor) : Scalar :=
  plainRuns inFlow indent c.fuel [] [] false c

/-! ## Quoted scalars -/

/-- The character of a one-letter escape. -/
def simpleEscape? : Char → Option Char
  | '0' => some '\x00'
  | 'a' => some '\x07'
  | 'b' => some '\x08'
  | 't' => some '\t'
  | '\t' => some '\t'
  | 'n' => some '\n'
  | 'v' => some '\x0b'
  | 'f' => some '\x0c'
  | 'r' => some '\r'
  | 'e' => some '\x1b'
  | ' ' => some ' '
  | '"' => some '"'
  | '\\' => some '\\'
  | '/' => some '/'
  | 'N' => some '\u0085'
  | '_' => some '\u00a0'
  | 'L' => some '\u2028'
  | 'P' => some '\u2029'
  | _ => none

/-- The number of hexadecimal digits after an escape letter. -/
def escapeLength? : Char → Option Nat
  | 'x' => some 2
  | 'u' => some 4
  | 'U' => some 8
  | _ => none

/-- The character with a code point.  A surrogate is no character; it becomes the replacement
character, so the escapes of different surrogates are read as the same text. -/
def charOfCode (n : Nat) : Reads Char :=
  if 0x80000000 ≤ n then .error .codePointTooLarge
  else if 0x110000 ≤ n then .error .codePointOutOfRange
  else if 0xd800 ≤ n ∧ n < 0xe000 then .ok '\ufffd'
  else .ok (Char.ofNat n)

/-- Breaks after a break inside quotes, with the white space that starts lines. -/
def quotedBreaks : Nat → Cursor → Reads (List Char × Cursor)
  | 0, c => .ok ([], c)
  | fuel + 1, c =>
    if c.atDocumentMark then malformed
    else
      let c := c.skip fun ch => ch == ' ' || ch == '\t'
      if isBreak c.peek then do
        let (b, c) := c.lineBreak
        let (bs, c) ← quotedBreaks fuel c
        return (b ++ bs, c)
      else .ok ([], c)

/-- White space inside quotes, folded if it contains a break. -/
def quotedGap (c : Cursor) : Reads (List Char × Cursor) :=
  let (spaces, c) := c.span fun ch => ch == ' ' || ch == '\t'
  if atEnd c.peek then malformed
  else if isBreak c.peek then do
    let (b, c) := c.lineBreak
    let (bs, c) ← quotedBreaks c.fuel c
    return (foldBreaks b bs, c)
  else .ok (spaces, c)

/-- The escape after a backslash. -/
def quotedEscape (c : Cursor) : Reads (List Char × Cursor) :=
  match simpleEscape? c.peek with
  | some ch => .ok ([ch], c.next)
  | none =>
    match escapeLength? c.peek with
    | some n =>
      let digits := c.next.rest.take n
      if digits.length = n && digits.all Text.isHexDigit then do
        let ch ← charOfCode (Text.ofDigits 16 digits)
        return ([ch], Cursor.advance n c.next)
      else malformed
    | none =>
      if isBreak c.peek then
        let (_, c) := c.lineBreak
        quotedBreaks c.fuel c
      else malformed

/-- What follows the opening quote, up to and with the closing one; `done` holds the text
read so far. -/
def quotedRuns (double : Bool) : Nat → (done : List Char) → Cursor → Reads (List Char × Cursor)
  | 0, _, _ => malformed
  | fuel + 1, done, c =>
    let ch := c.peek
    if !double && ch == '\'' && c.peek 1 == '\'' then
      quotedRuns double fuel (done ++ ['\'']) (Cursor.advance 2 c)
    else if ch == (if double then '"' else '\'') then .ok (done, c.next)
    else if ch == '\'' || ch == '"' || (ch == '\\' && !double) then
      quotedRuns double fuel (done ++ [ch]) c.next
    else if ch == '\\' then do
      let (e, c) ← quotedEscape c.next
      quotedRuns double fuel (done ++ e) c
    else if isGap ch then do
      let (g, c) ← quotedGap c
      quotedRuns double fuel (done ++ g) c
    else
      let (run, c) := c.span fun ch => !(ch == '\'' || ch == '"' || ch == '\\' || isGap ch)
      quotedRuns double fuel (done ++ run) c

/-- A quoted scalar, from its opening quote. -/
def quotedScalar (double : Bool) (c : Cursor) : Reads Scalar := do
  let (text, c) ← quotedRuns double (c.fuel + 1) [] c.next
  return ⟨text, c, false⟩

/-! ## Block scalars -/

/-- What becomes of the breaks that end a block scalar. -/
inductive Chomping where
  | clip
  | strip
  | keep
  deriving DecidableEq

/-- A chomping indicator. -/
def chompingOf? : Char → Option Chomping
  | '+' => some .keep
  | '-' => some .strip
  | _ => none

/-- An indentation indicator, which must not be zero. -/
def incrementOf (c : Cursor) : Reads (Option Nat × Cursor) :=
  if Text.isDigit c.peek then
    if c.peek == '0' then malformed else .ok (some (c.peek.toNat - 48), c.next)
  else .ok (none, c)

/-- The indicators after the mark of a block scalar, in either order. -/
def blockHeader (c : Cursor) : Reads (Chomping × Option Nat × Cursor) := do
  match chompingOf? c.peek with
  | some chomping =>
    let (increment, c) ← incrementOf c.next
    finish chomping increment c
  | none =>
    let (increment, c) ← incrementOf c
    if increment.isNone then finish .clip none c
    else
      match chompingOf? c.peek with
      | some chomping => finish chomping increment c.next
      | none => finish .clip increment c
where
  finish (chomping : Chomping) (increment : Option Nat) (c : Cursor) :
      Reads (Chomping × Option Nat × Cursor) :=
    if isSpaceOrEnd c.peek then .ok (chomping, increment, c) else malformed

/-- The rest of a line that may only hold a comment, with its break. -/
def commentLine (c : Cursor) : Reads Cursor :=
  let c := c.skip (· == ' ')
  let c := if c.peek == '#' then c.lineRest.2 else c
  if isBreakOrEnd c.peek then .ok c.lineBreak.2 else malformed

/-- The empty lines before a block whose indentation is not given, and the deepest
indentation among them and the first line. -/
def blockIndentation : Nat → (deepest : Nat) → Cursor → List Char × Nat × Cursor
  | 0, deepest, c => ([], deepest, c)
  | fuel + 1, deepest, c =>
    if c.peek == ' ' then
      let c := c.next
      blockIndentation fuel (max deepest c.column) c
    else if isBreak c.peek then
      let (b, c) := c.lineBreak
      let (bs, deepest, c) := blockIndentation fuel deepest c
      (b ++ bs, deepest, c)
    else ([], deepest, c)

/-- Pass the spaces up to a column. -/
def skipIndent (indent : Nat) (c : Cursor) : Cursor :=
  Cursor.advance (min (indent - c.column) (c.rest.takeWhile (· == ' ')).length) c

/-- The empty lines inside a block, and the indentation of the line after them. -/
def blockBreaks (indent : Nat) : Nat → Cursor → List Char × Cursor
  | 0, c => ([], c)
  | fuel + 1, c =>
    let c := skipIndent indent c
    if isBreak c.peek then
      let (b, c) := c.lineBreak
      let (bs, c) := blockBreaks indent fuel c
      (b ++ bs, c)
    else ([], c)

/-- The lines of a block: the text, the last break, the empty lines after it, and the
position after all. -/
def blockLines (folded : Bool) (indent : Nat) :
    Nat → (done breaks : List Char) → Cursor → List Char × List Char × List Char × Cursor
  | 0, done, breaks, c => (done, [], breaks, c)
  | fuel + 1, done, breaks, c =>
    let indented := c.peek == ' ' || c.peek == '\t'
    let (line, c) := c.lineRest
    let done := done ++ breaks ++ line
    let (b, c) := c.lineBreak
    let (bs, c) := blockBreaks indent c.fuel c
    if c.column = indent && !atEnd c.peek then
      let between :=
        if folded && b == ['\n'] && !indented && !(c.peek == ' ' || c.peek == '\t') then
          if bs.isEmpty then [' '] else []
        else b
      blockLines folded indent fuel (done ++ between) bs c
    else (done, b, bs, c)

/-- A block scalar, from its mark, in a collection whose indentation is one less than
`minIndent`. -/
def blockScalar (folded : Bool) (minIndent : Nat) (c : Cursor) : Reads Scalar := do
  let (chomping, increment, c) ← blockHeader c.next
  let c ← commentLine c
  let minIndent := max minIndent 1
  let (breaks, indent, c) :=
    match increment with
    | none =>
      let (breaks, deepest, c) := blockIndentation c.fuel 0 c
      (breaks, max minIndent deepest, c)
    | some n =>
      let indent := minIndent + n - 1
      let (breaks, c) := blockBreaks indent c.fuel c
      (breaks, indent, c)
  let (text, last, trailing, c) :=
    if c.column = indent && !atEnd c.peek then blockLines folded indent c.fuel [] breaks c
    else ([], [], breaks, c)
  let ending :=
    match chomping with
    | .strip => []
    | .clip => last
    | .keep => last ++ trailing
  return ⟨text ++ ending, c, true⟩

end LoopPainter.Yaml
