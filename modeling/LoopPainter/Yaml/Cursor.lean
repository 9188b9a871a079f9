import LoopPainter.Text.Digits

/-!
# Positions in a YAML text

A cursor is what is left of the text, with the number of characters passed, the line
and the column.  Past the end it reads the null character, which no text contains.

Five characters and the pair of carriage return and line feed end a line.  A byte
order mark takes no column.
-/

namespace LoopPainter.Yaml

/-- The null character, read at the end of the text. -/
def atEnd (c : Char) : Bool :=
  c == '\x00'

/-- A character that ends a line. -/
def isBreak (c : Char) : Bool :=
  c == '\n' || c == '\r' || c == '\u0085' || c == '\u2028' || c == '\u2029'

/-- The end of a line or of the text. -/
def isBreakOrEnd (c : Char) : Bool :=
  isBreak c || atEnd c

/-- A space, the end of a line or of the text. -/
def isSpaceOrEnd (c : Char) : Bool :=
  c == ' ' || isBreakOrEnd c

/-- A space or tab, the end of a line or of the text. -/
def isGap (c : Char) : Bool :=
  c == '\t' || isSpaceOrEnd c

/-- A character that may occur in a YAML text at all. -/
def isAllowed (c : Char) : Bool :=
  let n := c.toNat
  n == 0x09 || n == 0x0a || n == 0x0d || (0x20 ≤ n && n ≤ 0x7e) || n == 0x85 ||
    (0xa0 ≤ n && n ≤ 0xd7ff) || (0xe000 ≤ n && n ≤ 0xfffd) || 0x10000 ≤ n

/-- A letter, digit, hyphen or underscore. -/
def isWordChar (c : Char) : Bool :=
  Text.isDigit c || ('a' ≤ c && c ≤ 'z') || ('A' ≤ c && c ≤ 'Z') || c == '-' || c == '_'

/-- A position in a text. -/
structure Cursor where
  rest : List Char
  index : Nat := 0
  line : Nat := 0
  column : Nat := 0

namespace Cursor

/-- The character `k` places ahead. -/
def peek (c : Cursor) (k : Nat := 0) : Char :=
  c.rest.getD k '\x00'

/-- Whether the text ahead starts with a word. -/
def startsWith (c : Cursor) (word : List Char) : Bool :=
  word.isPrefixOf c.rest

/-- Pass one character. -/
def next (c : Cursor) : Cursor :=
  match c.rest with
  | [] => c
  | ch :: rest =>
    if isBreak ch && !(ch == '\r' && rest.head? == some '\n') then
      { rest := rest, index := c.index + 1, line := c.line + 1, column := 0 }
    else
      { c with
        rest := rest
        index := c.index + 1
        column := if ch == '\ufeff' then c.column else c.column + 1 }

/-- Pass a number of characters. -/
def advance : Nat → Cursor → Cursor
  | 0, c => c
  | n + 1, c => advance n c.next

/-- The characters ahead that satisfy `p`, and the position after them. -/
def span (c : Cursor) (p : Char → Bool) : List Char × Cursor :=
  let taken := c.rest.takeWhile p
  (taken, advance taken.length c)

/-- Pass the characters that satisfy `p`. -/
def skip (c : Cursor) (p : Char → Bool) : Cursor :=
  (c.span p).2

/-- The characters up to the end of the line, and the position there. -/
def lineRest (c : Cursor) : List Char × Cursor :=
  c.span fun ch => !isBreakOrEnd ch

/-- Pass one line break, if there is one.  The separators of lines and paragraphs stand for
themselves, every other break for a line feed. -/
def lineBreak (c : Cursor) : List Char × Cursor :=
  match c.peek with
  | '\r' => (['\n'], if c.peek 1 == '\n' then advance 2 c else c.next)
  | '\n' | '\u0085' => (['\n'], c.next)
  | '\u2028' => (['\u2028'], c.next)
  | '\u2029' => (['\u2029'], c.next)
  | _ => ([], c)

/-- Whether one of the document marks, three hyphens or three dots, is ahead. -/
def atDocumentMark (c : Cursor) : Bool :=
  (c.startsWith ['-', '-', '-'] || c.startsWith ['.', '.', '.']) && isGap (c.peek 3)

/-- Fuel for a loop that passes at least one character each time. -/
def fuel (c : Cursor) : Nat :=
  c.rest.length + 1

end Cursor

end LoopPainter.Yaml
