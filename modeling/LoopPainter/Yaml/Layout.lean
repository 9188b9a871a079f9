import LoopPainter.Yaml.Tag
import LoopPainter.Yaml.Cursor

/-!
# Laying out scalars

A sheet is the YAML text written so far together with what later writing depends on: the
column, and whether the sheet ends in white space or in nothing but indentation.

A text is written plain where that reads back as the same text; otherwise between single
quotes; and between double quotes with escapes where it holds unprintable characters or a
space beside a line break (`styleOf`).  Once a line is past eighty columns it is broken at
the next single space.
-/

namespace LoopPainter.Yaml

/-- A text being written. -/
structure Sheet where
  /-- The characters written, last first. -/
  written : List Char := []
  column : Nat := 0
  /-- The sheet ends in white space. -/
  spaced : Bool := true
  /-- The current line holds indentation only. -/
  indented : Bool := true
  /-- The text could go on, and needs a mark at its end. -/
  openEnded : Bool := false

namespace Sheet

/-- The text as a whole. -/
def text (s : Sheet) : List Char :=
  s.written.reverse

/-- The column past which lines are broken. -/
def width : Nat := 80

/-- Write characters of one line. -/
def write (s : Sheet) (cs : List Char) : Sheet :=
  { s with written := cs.reverse ++ s.written, column := s.column + cs.length }

/-- End the line. -/
def breakLine (s : Sheet) (c : Char := '\n') : Sheet :=
  { s with written := c :: s.written, column := 0, spaced := true, indented := true }

/-- Start a line at a column, unless the current one is already there. -/
def startLine (s : Sheet) (indent : Nat) : Sheet :=
  let s :=
    if !s.indented || indent < s.column || (s.column == indent && !s.spaced) then s.breakLine
    else s
  if s.column < indent then
    { s.write (List.replicate (indent - s.column) ' ') with spaced := true }
  else s

/-- Write an indicator, after a space if it needs one.  The line stays a line of indentation
only if the indicator counts as indentation. -/
def indicator (s : Sheet) (mark : List Char) (apart : Bool) (spaced indentation : Bool := false) :
    Sheet :=
  { s.write (if s.spaced || !apart then mark else ' ' :: mark) with
    spaced := spaced
    indented := s.indented && indentation
    openEnded := false }

end Sheet

/-! ## Styles -/

/-- The three ways of writing a scalar. -/
inductive Style where
  | plain
  | single
  | double
  deriving DecidableEq

/-- What decides the style of a text. -/
structure Traits where
  lineBreaks : Bool := false
  special : Bool := false
  /-- An indicator that a plain scalar must not hold at that place. -/
  indicators : Bool := false
  edge : Bool := false
  spaceBeforeBreak : Bool := false
  spaceAfterBreak : Bool := false

/-- A line break, as far as written texts go. -/
def isWrittenBreak (c : Char) : Bool :=
  c == '\n' || c == '\u0085' || c == '\u2028' || c == '\u2029'

/-- A character that needs an escape. -/
def isSpecial (c : Char) : Bool :=
  let n := c.toNat
  !(c == '\n' || (0x20 ≤ n && n ≤ 0x7e)) &&
    !((n == 0x85 || (0xa0 ≤ n && n ≤ 0xd7ff) || (0xe000 ≤ n && n ≤ 0xfffd) ||
      (0x10000 ≤ n && n < 0x10ffff)) && n != 0xfeff)

/-- An indicator at the start of a text; `after` is the next character. -/
def isLeadingIndicator (c after : Char) : Bool :=
  "#,[]\x7b\x7d&*!|>'\"%@\x60".toList.contains c ||
    ((c == '?' || c == ':' || c == '-') && isGap after)

/-- An indicator inside a text, between two characters. -/
def isInnerIndicator (before c after : Char) : Bool :=
  (c == ':' && isGap after) || (c == '#' && isGap before)

/-- Whether some two neighbors satisfy `p`. -/
def anyNeighbors (p : Char → Char → Bool) : List Char → Bool
  | a :: b :: rest => p a b || anyNeighbors p (b :: rest)
  | _ => false

/-- Whether a text holds an inner indicator after its first character. -/
def hasInnerIndicator : List Char → Bool
  | a :: b :: rest => isInnerIndicator a b (rest.headD '\x00') || hasInnerIndicator (b :: rest)
  | _ => false

/-- Whether a text holds an indicator that rules out the plain style. -/
def hasIndicator (s : List Char) : Bool :=
  ['-', '-', '-'].isPrefixOf s || ['.', '.', '.'].isPrefixOf s ||
    (match s with
      | c :: rest => isLeadingIndicator c (rest.headD '\x00')
      | [] => false) ||
    hasInnerIndicator s

/-- A space or a line break. -/
def isSpaceOrBreak (c : Char) : Bool :=
  c == ' ' || isWrittenBreak c

/-- The traits of a text. -/
def traitsOf (s : List Char) : Traits where
  lineBreaks := s.any isWrittenBreak
  special := s.any isSpecial
  indicators := hasIndicator s
  edge := (s.head?.any isSpaceOrBreak) || (s.getLast?.any isSpaceOrBreak)
  spaceBeforeBreak := anyNeighbors (fun a b => a == ' ' && isWrittenBreak b) s
  spaceAfterBreak := anyNeighbors (fun a b => isWrittenBreak a && b == ' ') s

/-- The style of a text that a reader must take for text again. -/
def styleOf (s : List Char) : Style :=
  let t := traitsOf s
  if t.special || t.spaceBeforeBreak || t.spaceAfterBreak then .double
  else if Tag.ofPlain s = .str && !t.edge && !t.lineBreaks && !t.indicators then .plain
  else .single

/-! ## Writing in a style -/

/-- A part of a text that is written in one go. -/
inductive Piece where
  | run (cs : List Char)
  | spaces (n : Nat)
  | breaks (cs : List Char)
  | quote
  deriving DecidableEq

/-- Put a character in front of the pieces of what follows it. -/
def Piece.push (c : Char) : List Piece → List Piece
  | pieces =>
    if c == '\'' then .quote :: pieces
    else if c == ' ' then
      match pieces with
      | .spaces n :: rest => .spaces (n + 1) :: rest
      | _ => .spaces 1 :: pieces
    else if isWrittenBreak c then
      match pieces with
      | .breaks cs :: rest => .breaks (c :: cs) :: rest
      | _ => .breaks [c] :: pieces
    else
      match pieces with
      | .run cs :: rest => .run (c :: cs) :: rest
      | _ => .run [c] :: pieces

/-- The pieces of a text. -/
def Piece.ofText (s : List Char) : List Piece :=
  s.foldr Piece.push []

namespace Sheet

/-- Write the breaks inside single quotes.  A line feed at their start is doubled, since one
alone would be read as a space. -/
def quotedBreaks (s : Sheet) (indent : Nat) (cs : List Char) : Sheet :=
  let s := if cs.head? == some '\n' then s.breakLine else s
  (cs.foldl (fun s c => s.breakLine c) s).startLine indent

/-- Write the pieces of a text.  A single space between two pieces becomes a new line once
the line is full and `split` allows it. -/
def pieces (quoted split : Bool) (indent : Nat) : (first : Bool) → List Piece → Sheet → Sheet
  | _, [], s => s
  | first, p :: rest, s =>
    let s :=
      match p with
      | .run cs => s.write cs
      | .quote => s.write (if quoted then ['\'', '\''] else ['\''])
      | .breaks cs => s.quotedBreaks indent cs
      | .spaces n =>
        if n == 1 && width < s.column && split && !first && !rest.isEmpty then
          let s := s.startLine indent
          if quoted then s else { s with spaced := false, indented := false }
        else s.write (List.replicate n ' ')
    pieces quoted split indent false rest s

/-- Write a text plain. -/
def plain (s : Sheet) (root split : Bool) (indent : Nat) (text : List Char) : Sheet :=
  let s := if root then { s with openEnded := true } else s
  if text.isEmpty then s
  else
    let s := if s.spaced then s else s.write [' ']
    pieces false split indent true (Piece.ofText text)
      { s with spaced := false, indented := false }

/-- Write a text between single quotes. -/
def singleQuoted (s : Sheet) (split : Bool) (indent : Nat) (text : List Char) : Sheet :=
  (pieces true split indent true (Piece.ofText text) (s.indicator ['\''] true)).indicator
    ['\''] false

/-- The letter that escapes a character, if one does. -/
def escapeLetter? : Char → Option Char
  | '\x00' => some '0'
  | '\x07' => some 'a'
  | '\x08' => some 'b'
  | '\t' => some 't'
  | '\n' => some 'n'
  | '\x0b' => some 'v'
  | '\x0c' => some 'f'
  | '\r' => some 'r'
  | '\x1b' => some 'e'
  | '"' => some '"'
  | '\\' => some '\\'
  | '\u0085' => some 'N'
  | '\u00a0' => some '_'
  | '\u2028' => some 'L'
  | '\u2029' => some 'P'
  | _ => none

/-- A number in capital hexadecimal digits. -/
def capitalHex (width n : Nat) : List Char :=
  (Text.padded 16 width n).map Char.toUpper

/-- The escape of a character. -/
def escape (c : Char) : List Char :=
  match escapeLetter? c with
  | some l => ['\\', l]
  | none =>
    if c.toNat ≤ 0xff then '\\' :: 'x' :: capitalHex 2 c.toNat
    else if c.toNat ≤ 0xffff then '\\' :: 'u' :: capitalHex 4 c.toNat
    else '\\' :: 'U' :: capitalHex 8 c.toNat

/-- A character that stands for itself between double quotes. -/
def isShown (c : Char) : Bool :=
  let n := c.toNat
  !(c == '"' || c == '\\' || n == 0xfeff || n == 0x2028 || n == 0x2029) &&
    ((0x20 ≤ n && n ≤ 0x7e) || (0xa0 ≤ n && n ≤ 0xd7ff) || (0xe000 ≤ n && n ≤ 0xfffd))

/-- End a full line inside double quotes with a backslash.  A space that starts the next
line is escaped. -/
def foldQuoted (s : Sheet) (indent : Nat) (pending : List Char) (next : Char) : Sheet :=
  let s := (s.write (pending ++ ['\\'])).startLine indent
  let s := { s with spaced := false, indented := false }
  if next == ' ' then s.write ['\\'] else s

/-- The characters between double quotes; `pending` holds those not written yet, last
first.  A line is broken before a space or after an escape, but not at the first or before
the last character. -/
def doubleRest (split : Bool) (indent : Nat) :
    (first : Bool) → (pending : List Char) → List Char → Sheet → Sheet
  | _, pending, [], s => s.write pending.reverse
  | first, pending, c :: rest, s =>
    let mayFold := split && !first && !rest.isEmpty
    if isShown c then
      if mayFold && (c == ' ' || pending.isEmpty) && width < s.column + pending.length then
        doubleRest split indent false [c] rest (s.foldQuoted indent pending.reverse c)
      else doubleRest split indent false (c :: pending) rest s
    else
      let s := s.write (pending.reverse ++ escape c)
      if mayFold && width + 1 < s.column then
        doubleRest split indent false [] rest (s.foldQuoted indent [] (rest.headD '\x00'))
      else doubleRest split indent false [] rest s

/-- Write a text between double quotes. -/
def doubleQuoted (s : Sheet) (split : Bool) (indent : Nat) (text : List Char) : Sheet :=
  (doubleRest split indent true [] text (s.indicator ['"'] true)).indicator ['"'] false

end Sheet

end LoopPainter.Yaml
