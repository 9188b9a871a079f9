import LoopPainter.Yaml.Scalar

/-!
# YAML tokens

The tokens of a text in order.  Indentation becomes explicit: the start of a block
sequence or mapping and the end of any block are tokens of their own.

A mapping key may come without a mark, and is recognized only by the colon after it.
The lexer therefore remembers, for each level of flow nesting, where the last token that
could be a key stands, and puts the key mark there when the colon comes.  Such a key must
lie on one line and within 1024 characters.

The first fault ends the list with the token `broken`, so that a reader who finds the
tokens before it in disorder reports that first.
-/

namespace LoopPainter.Yaml

/-- A token. -/
inductive Token where
  | versionDirective (major : Nat)
  | tagDirective (handle start : String)
  | otherDirective
  | documentStart
  | documentEnd
  | streamEnd
  | blockSequenceStart
  | blockMappingStart
  | blockEnd
  | flowSequenceStart
  | flowSequenceEnd
  | flowMappingStart
  | flowMappingEnd
  | blockEntry
  | flowEntry
  | key
  | value
  | alias (name : String)
  | anchor (name : String)
  | tag (handle : Option String) (suffix : String)
  | scalar (text : String) (plain : Bool)
  | broken (fault : Fault)
  deriving DecidableEq, Inhabited

/-- A token that may turn out to be a mapping key. -/
structure KeyCandidate where
  /-- How many tokens precede it. -/
  place : Nat
  /-- It stands where only a key can stand. -/
  required : Bool
  index : Nat
  line : Nat
  column : Nat

/-- The state of the lexer. -/
structure Lexer where
  cursor : Cursor
  tokens : Array Token := #[]
  /-- The depth of flow nesting. -/
  flow : Nat := 0
  /-- The column of the innermost block, `-1` outside all blocks. -/
  indent : Int := -1
  /-- The columns of the blocks around it. -/
  outer : List Int := []
  /-- A key without a mark may start here. -/
  keyAllowed : Bool := true
  /-- The key candidates with their flow depth, innermost first. -/
  candidates : List (Nat × KeyCandidate) := []

namespace Lexer

/-- Add a token. -/
def push (l : Lexer) (t : Token) : Lexer :=
  { l with tokens := l.tokens.push t }

/-- Pass characters. -/
def forward (l : Lexer) (n : Nat) : Lexer :=
  { l with cursor := Cursor.advance n l.cursor }

/-- The candidate of the current flow depth. -/
def candidate? (l : Lexer) : Option KeyCandidate :=
  l.candidates.lookup l.flow

/-- Forget the candidate of the current flow depth; one that is required must not be lost. -/
def dropCandidate (l : Lexer) : Reads Lexer :=
  match l.candidate? with
  | some k => if k.required then malformed else forget
  | none => forget
where
  forget : Reads Lexer := .ok { l with candidates := l.candidates.filter (·.1 != l.flow) }

/-- Remember the token that starts here as a candidate. -/
def saveCandidate (l : Lexer) : Reads Lexer :=
  if l.keyAllowed then do
    let required := l.flow == 0 && l.indent == l.cursor.column
    let l ← l.dropCandidate
    let k : KeyCandidate :=
      ⟨l.tokens.size, required, l.cursor.index, l.cursor.line, l.cursor.column⟩
    return { l with candidates := (l.flow, k) :: l.candidates }
  else .ok l

/-- The largest number of characters of a key without a mark. -/
def maxKeyLength : Nat := 1024

/-- Forget the candidates that are too far back. -/
def dropStale (l : Lexer) : Reads Lexer :=
  let stale (k : KeyCandidate) : Bool :=
    k.line != l.cursor.line || maxKeyLength < l.cursor.index - k.index
  if l.candidates.any fun (_, k) => stale k && k.required then malformed
  else .ok { l with candidates := l.candidates.filter fun (_, k) => !stale k }

/-- Close the blocks that are indented deeper than a column. -/
def closeBlocks (column : Int) : List Int → Lexer → Lexer
  | [], l => l
  | outer :: rest, l =>
    if column < l.indent then
      closeBlocks column rest { l.push .blockEnd with indent := outer, outer := rest }
    else l

/-- Close the blocks that are indented deeper than a column; inside flow collections
indentation does not matter. -/
def unwind (l : Lexer) (column : Int) : Lexer :=
  if l.flow = 0 then closeBlocks column l.outer l else l

/-- Open a block at a column, if it is deeper than the innermost one. -/
def openBlock (l : Lexer) (column : Nat) (place : Nat) (t : Token) : Lexer :=
  if l.indent < column then
    { l with
      indent := column
      outer := l.indent :: l.outer
      tokens := l.tokens.insertIdxIfInBounds place t }
  else l

/-- Pass white space, comments and line breaks to the next token. -/
def toNextToken : Nat → Lexer → Lexer
  | 0, l => l
  | fuel + 1, l =>
    let c := l.cursor.skip (· == ' ')
    let c := if c.peek == '#' then c.lineRest.2 else c
    if isBreak c.peek then
      toNextToken fuel
        { l with cursor := c.lineBreak.2, keyAllowed := l.keyAllowed || l.flow == 0 }
    else { l with cursor := c }

/-! ## Directives, anchors and tags -/

/-- A number that is part of a version. -/
def versionNumber (c : Cursor) : Reads (Nat × Cursor) :=
  let (digits, c) := c.span Text.isDigit
  if digits.isEmpty then malformed
  else if Text.maxDigits < digits.length then .error (.tooManyDigits digits.length)
  else .ok (Text.ofDigits 10 digits, c)

/-- A character of a tag. -/
def isTagChar (c : Char) : Bool :=
  isWordChar c || ";/?:@&=+$,.!~*'()[]".toList.contains c

/-- The bytes written as percent signs and two hexadecimal digits each. -/
def percentBytes : Nat → Cursor → Reads (List UInt8 × Cursor)
  | 0, c => .ok ([], c)
  | fuel + 1, c =>
    if c.peek == '%' then
      let digits := [c.peek 1, c.peek 2]
      if digits.all Text.isHexDigit then do
        let (bytes, c) ← percentBytes fuel (Cursor.advance 3 c)
        return (UInt8.ofNat (Text.ofDigits 16 digits) :: bytes, c)
      else malformed
    else .ok ([], c)

/-- The text of a tag, with its percent escapes replaced. -/
def tagText : Nat → Cursor → Reads (List Char × Cursor)
  | 0, c => .ok ([], c)
  | fuel + 1, c =>
    if c.peek == '%' then do
      let (bytes, c) ← percentBytes c.fuel c
      match String.fromUTF8? (ByteArray.mk bytes.toArray) with
      | none => malformed
      | some s =>
        let (rest, c) ← tagText fuel c
        return (s.toList ++ rest, c)
    else
      let (run, c) := c.span isTagChar
      if run.isEmpty then .ok ([], c)
      else do
        let (rest, c) ← tagText fuel c
        return (run ++ rest, c)

/-- The text of a tag, which is not empty. -/
def tagSuffix (c : Cursor) : Reads (String × Cursor) := do
  let (text, c) ← tagText c.fuel c
  if text.isEmpty then malformed else return (String.ofList text, c)

/-- A tag handle: an exclamation mark, or a word between two. -/
def tagHandle (c : Cursor) : Reads (String × Cursor) :=
  if c.peek != '!' then malformed
  else
    let (word, after) := c.next.span isWordChar
    if c.peek 1 == ' ' then .ok ("!", c.next)
    else if after.peek != '!' then malformed
    else .ok (String.ofList ('!' :: word ++ ['!']), after.next)

/-- The directive after its percent sign. -/
def directive (c : Cursor) : Reads (Token × Cursor) := do
  let (name, c) := c.span isWordChar
  if name.isEmpty || !isSpaceOrEnd c.peek then malformed
  let (t, c) ←
    if name == "YAML".toList then do
      let (major, c) ← versionNumber (c.skip (· == ' '))
      if c.peek != '.' then malformed
      let (_, c) ← versionNumber c.next
      if !isSpaceOrEnd c.peek then malformed
      pure (Token.versionDirective major, c)
    else if name == "TAG".toList then do
      let (handle, c) ← tagHandle (c.skip (· == ' '))
      if c.peek != ' ' then malformed
      let (start, c) ← tagSuffix (c.skip (· == ' '))
      if !isSpaceOrEnd c.peek then malformed
      pure (Token.tagDirective handle start, c)
    else pure (Token.otherDirective, c.lineRest.2)
  return (t, ← commentLine c)

/-- The name after an anchor or alias mark. -/
def anchorName (c : Cursor) : Reads (String × Cursor) :=
  let (name, c) := c.span isWordChar
  if name.isEmpty || !(isGap c.peek || "?:,]\x7d%@\x60".toList.contains c.peek) then malformed
  else .ok (String.ofList name, c)

/-- Whether a tag starts with a handle: another exclamation mark before the next space. -/
def hasHandle (c : Cursor) : Bool :=
  let word := c.next.rest.takeWhile fun ch => !isSpaceOrEnd ch
  word.contains '!'

/-- A tag. -/
def tag (c : Cursor) : Reads (Token × Cursor) := do
  let ((handle, suffix), c) ←
    if c.peek 1 == '<' then do
      let (suffix, c) ← tagSuffix (Cursor.advance 2 c)
      if c.peek != '>' then malformed
      pure ((none, suffix), c.next)
    else if isGap (c.peek 1) then pure ((none, "!"), c.next)
    else do
      let (handle, c) ← if hasHandle c then tagHandle c else pure ("!", c.next)
      let (suffix, c) ← tagSuffix c
      pure ((some handle, suffix), c)
  if isSpaceOrEnd c.peek then return (.tag handle suffix, c) else malformed

/-! ## One token -/

/-- The end of the text. -/
def fetchStreamEnd (l : Lexer) : Reads Lexer := do
  let l ← (l.unwind (-1)).dropCandidate
  return l.push .streamEnd

/-- A token at the left margin that closes all blocks. -/
def fetchMargin (l : Lexer) (t : Token) (c : Cursor) : Reads Lexer := do
  let l ← (l.unwind (-1)).dropCandidate
  return { l.push t with cursor := c, keyAllowed := false }

/-- The start of a flow collection. -/
def fetchFlowStart (l : Lexer) (t : Token) : Reads Lexer := do
  let l ← l.saveCandidate
  return { (l.forward 1).push t with flow := l.flow + 1, keyAllowed := true }

/-- The end of a flow collection. -/
def fetchFlowEnd (l : Lexer) (t : Token) : Reads Lexer := do
  let l ← l.dropCandidate
  if l.flow = 0 then malformed
  return { (l.forward 1).push t with flow := l.flow - 1, keyAllowed := false }

/-- The comma between the entries of a flow collection. -/
def fetchFlowEntry (l : Lexer) : Reads Lexer := do
  let l ← l.dropCandidate
  return { (l.forward 1).push .flowEntry with keyAllowed := true }

/-- The mark of a block entry or of an explicit key, which may open a block. -/
def fetchMark (l : Lexer) (t opening : Token) (keyAfter : Bool) : Reads Lexer := do
  if l.flow == 0 && !l.keyAllowed then malformed
  let l := if l.flow = 0 then l.openBlock l.cursor.column l.tokens.size opening else l
  let l ← l.dropCandidate
  return { (l.forward 1).push t with keyAllowed := keyAfter }

/-- The colon before a value.  If a key candidate precedes it, the key mark goes there. -/
def fetchValue (l : Lexer) : Reads Lexer :=
  match l.candidate? with
  | some k =>
    let l := { l with
      candidates := l.candidates.filter (·.1 != l.flow)
      tokens := l.tokens.insertIdxIfInBounds k.place .key
      keyAllowed := false }
    let l := if l.flow = 0 then l.openBlock k.column k.place .blockMappingStart else l
    .ok ((l.forward 1).push .value)
  | none => l.fetchMark .value .blockMappingStart (l.flow == 0)

/-- A token that may be a key, with the position after it. -/
def fetchKeyLike (l : Lexer) (read : Cursor → Reads (Token × Cursor)) : Reads Lexer := do
  let l ← l.saveCandidate
  let (t, c) ← read l.cursor
  return { l.push t with cursor := c, keyAllowed := false }

/-- A scalar that may be a key. -/
def fetchScalar (l : Lexer) (plain : Bool) (read : Cursor → Reads Scalar) : Reads Lexer := do
  let l ← l.saveCandidate
  let s ← read l.cursor
  return { l.push (.scalar (String.ofList s.text) plain) with
    cursor := s.after, keyAllowed := s.broken }

/-- A block scalar. -/
def fetchBlockScalar (l : Lexer) (folded : Bool) : Reads Lexer := do
  let l ← l.dropCandidate
  let s ← blockScalar folded (l.indent + 1).toNat l.cursor
  return { l.push (.scalar (String.ofList s.text) false) with
    cursor := s.after, keyAllowed := true }

/-- Whether a plain scalar can start here. -/
def startsPlain (l : Lexer) : Bool :=
  let ch := l.cursor.peek
  !(isGap ch || "-?:,[]\x7b\x7d#&*!|>'\"%@\x60".toList.contains ch) ||
    (!isGap (l.cursor.peek 1) && (ch == '-' || (l.flow == 0 && (ch == '?' || ch == ':'))))

/-- Whether the character here is an indicator: inside flow collections always, in block
context if a gap follows. -/
def isIndicator (l : Lexer) : Bool :=
  l.flow != 0 || isGap (l.cursor.peek 1)

/-- The token at the cursor. -/
def fetch (l : Lexer) : Reads Lexer :=
  let c := l.cursor
  let ch := c.peek
  if atEnd ch then l.fetchStreamEnd
  else if ch == '%' && c.column == 0 then do
    let (t, after) ← directive c.next
    l.fetchMargin t after
  else if c.column == 0 && c.startsWith ['-', '-', '-'] && isGap (c.peek 3) then
    l.fetchMargin .documentStart (Cursor.advance 3 c)
  else if c.column == 0 && c.startsWith ['.', '.', '.'] && isGap (c.peek 3) then
    l.fetchMargin .documentEnd (Cursor.advance 3 c)
  else if ch == '[' then l.fetchFlowStart .flowSequenceStart
  else if ch == '\x7b' then l.fetchFlowStart .flowMappingStart
  else if ch == ']' then l.fetchFlowEnd .flowSequenceEnd
  else if ch == '\x7d' then l.fetchFlowEnd .flowMappingEnd
  else if ch == ',' then l.fetchFlowEntry
  else if ch == '-' && isGap (c.peek 1) then l.fetchMark .blockEntry .blockSequenceStart true
  else if ch == '?' && l.isIndicator then l.fetchMark .key .blockMappingStart (l.flow == 0)
  else if ch == ':' && l.isIndicator then l.fetchValue
  else if ch == '*' then
    l.fetchKeyLike fun c => (anchorName c.next).map fun (name, c) => (.alias name, c)
  else if ch == '&' then
    l.fetchKeyLike fun c => (anchorName c.next).map fun (name, c) => (.anchor name, c)
  else if ch == '!' then l.fetchKeyLike tag
  else if ch == '|' && l.flow == 0 then l.fetchBlockScalar false
  else if ch == '>' && l.flow == 0 then l.fetchBlockScalar true
  else if ch == '\'' then l.fetchScalar false (quotedScalar false)
  else if ch == '"' then l.fetchScalar false (quotedScalar true)
  else if l.startsPlain then
    l.fetchScalar true fun c => .ok (plainScalar (l.flow != 0) (l.indent + 1).toNat c)
  else malformed

/-- Pass to the next token and read it. -/
def step (l : Lexer) : Reads Lexer := do
  let l ← (toNextToken l.cursor.fuel l).dropStale
  (l.unwind l.cursor.column).fetch

/-- Read tokens to the end of the text. -/
def run : Nat → Lexer → Array Token
  | 0, l => l.tokens
  | fuel + 1, l =>
    match l.step with
    | .error fault => l.tokens.push (.broken fault)
    | .ok l' => if l'.tokens.back? = some .streamEnd then l'.tokens else run fuel l'

end Lexer

/-- The tokens of a text.  A byte order mark at its start is passed over. -/
def tokens (text : List Char) : List Token :=
  let c : Cursor := { rest := text }
  let c := if c.peek == '\ufeff' then c.next else c
  (Lexer.run (c.fuel + 1) { cursor := c }).toList

end LoopPainter.Yaml
