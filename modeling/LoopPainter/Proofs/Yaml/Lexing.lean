import LoopPainter.Proofs.Yaml.Plain
import LoopPainter.Yaml.Token

/-!
# The tokens of block mappings and lists

What a lexer makes of a text in block style.  Between two tokens it stands before white space
(`Stands`), or its next token is ahead at the start of a line (`Poised`).  A key is read in two
steps, since its mark is put before it once the colon has come (`Poised.key`).

How much fuel a run has does not matter, as every step passes a character (`Leads`).
-/

namespace LoopPainter.Yaml

open Cursor

namespace Lexer

variable {l l' : Lexer} {key text out rest tail : List Char} {ch : Char} {T : List Token}
  {column m n : ℕ} {indent : ℤ} {outer : List ℤ}

/-! ## Runs -/

/-- Reading on from the first state comes to the second, and passes a character in every step. -/
def Leads (l l' : Lexer) : Prop :=
  ∃ k, k + l'.cursor.rest.length ≤ l.cursor.rest.length ∧ ∀ fuel, run (fuel + k) l = run fuel l'

theorem Leads.trans {l₁ l₂ l₃ : Lexer} (h₁ : Leads l₁ l₂) (h₂ : Leads l₂ l₃) : Leads l₁ l₃ := by
  obtain ⟨k₁, hk₁, hrun₁⟩ := h₁
  obtain ⟨k₂, hk₂, hrun₂⟩ := h₂
  refine ⟨k₂ + k₁, by omega, fun fuel => ?_⟩
  rw [← Nat.add_assoc, hrun₁, hrun₂]

theorem run_succ (fuel : ℕ) (l : Lexer) :
    run (fuel + 1) l =
      (match l.step with
      | .error fault => l.tokens.push (.broken fault)
      | .ok l' => if l'.tokens.back? = some .streamEnd then l'.tokens else run fuel l') :=
  (rfl)

theorem leads_of_step (h : l.step = .ok l') (hgoes : l'.tokens.back? ≠ some .streamEnd)
    (hpasses : l'.cursor.rest.length < l.cursor.rest.length) : Leads l l' := by
  refine ⟨1, by omega, fun fuel => ?_⟩
  rw [run_succ, h]
  exact if_neg hgoes

/-! ## States -/

/-- A lexer in block style, with what is ahead, the tokens so far and the columns of the open
blocks.  It may forget every key candidate. -/
structure Stands (l : Lexer) (rest : List Char) (T : List Token) (indent : ℤ) (outer : List ℤ) :
    Prop where
  rest : l.cursor.rest = rest
  tokens : l.tokens = T.toArray
  flow : l.flow = 0
  indent : l.indent = indent
  outer : l.outer = outer
  candidates : ∀ k ∈ l.candidates, k.2.required = false

theorem Stands.exists_dropStale (h : Stands l rest T indent outer) :
    ∃ p, l.dropStale = .ok { l with candidates := l.candidates.filter p } ∧
      Stands { l with candidates := l.candidates.filter p } rest T indent outer := by
  refine ⟨_, if_neg ?_, ⟨h.rest, h.tokens, h.flow, h.indent, h.outer, fun k hk =>
    h.candidates k (List.mem_filter.mp hk).1⟩⟩
  rw [Bool.not_eq_true, List.any_eq_false]
  rintro ⟨i, k⟩ hk
  have hcalm : k.required = false := h.candidates _ hk
  simp [hcalm]

theorem Stands.dropCandidate_eq (h : Stands l rest T indent outer) :
    l.dropCandidate = .ok { l with candidates := l.candidates.filter (·.1 != l.flow) } := by
  have hforget : dropCandidate.forget l =
    .ok { l with candidates := l.candidates.filter (·.1 != l.flow) } := rfl
  rw [dropCandidate, hforget]
  cases hk : l.candidate? with
  | none => rfl
  | some k =>
      have hmem : ∃ i, (i, k) ∈ l.candidates := by
        rw [candidate?, List.lookup_eq_some_iff] at hk
        obtain ⟨front, back, heq, -⟩ := hk
        exact ⟨l.flow, by simp [heq]⟩
      obtain ⟨i, hmem⟩ := hmem
      dsimp only
      rw [h.candidates _ hmem, if_neg Bool.false_ne_true]

theorem closeBlocks_eq (h : l.indent ≤ column) : closeBlocks column l.outer l = l := by
  cases l.outer with
  | nil => rfl
  | cons o outer => rw [closeBlocks, if_neg (by omega)]

theorem Stands.exists_saveCandidate (h : Stands l rest T indent outer)
    (hindent : indent ≠ l.cursor.column) :
    ∃ ks, l.saveCandidate = .ok { l with candidates := ks } ∧
      Stands { l with candidates := ks } rest T indent outer := by
  by_cases hkey : l.keyAllowed = true
  · have hrequired : (l.flow == 0 && l.indent == l.cursor.column) = false := by
      simp [h.indent, hindent]
    rw [saveCandidate, if_pos hkey, hrequired, h.dropCandidate_eq]
    refine ⟨_, rfl, ⟨h.rest, h.tokens, h.flow, h.indent, h.outer, ?_⟩⟩
    rintro k (hk | ⟨_, hk⟩)
    · rfl
    · exact h.candidates k (List.mem_filter.mp hk).1
  · rw [saveCandidate, if_neg hkey]
    exact ⟨l.candidates, rfl, h⟩

/-! ## To the next token -/

theorem toNextToken_spaces (fuel : ℕ) (h : l.cursor.rest = List.replicate n ' ' ++ tail)
    (htail : tail.headD '\x00' ≠ ' ' ∧ isBreak (tail.headD '\x00') = false ∧
      tail.headD '\x00' ≠ '#') :
    toNextToken (fuel + 1) l = { l with cursor := advance n l.cursor } := by
  obtain ⟨hspace, hbreak, hhash⟩ := htail
  have hskip : l.cursor.skip (· == ' ') = advance n l.cursor := by
    have hskip := skip_append h (p := (· == ' '))
      (fun ch hch => by simp [List.eq_of_mem_replicate hch]) (by
        intro ch hch
        obtain ⟨back, rfl⟩ := List.head?_eq_some_iff.mp hch
        simpa using hspace)
    rwa [List.length_replicate] at hskip
  have hpeek : (advance n l.cursor).peek = tail.headD '\x00' := by
    rw [peek_eq_headD, rest_advance, h, List.drop_left' (by simp)]
  have hcomment : (if (advance n l.cursor).peek == '#' then (advance n l.cursor).lineRest.2
      else advance n l.cursor) = advance n l.cursor :=
    if_neg (by rw [hpeek]; simpa using hhash)
  rw [toNextToken, hskip, hcomment, hpeek, if_neg (by rw [hbreak]; exact Bool.false_ne_true)]

theorem toNextToken_lineAt (h : l.cursor.rest = lineAt m ++ tail)
    (htail : tail.headD '\x00' ≠ ' ' ∧ isBreak (tail.headD '\x00') = false ∧
      tail.headD '\x00' ≠ '#') :
    toNextToken l.cursor.fuel l =
      { l with cursor := advance (m + 1) l.cursor, keyAllowed := l.keyAllowed || l.flow == 0 } := by
  have hskip : l.cursor.skip (· == ' ') = l.cursor :=
    skip_append (a := []) h nofun (by rintro _ ⟨⟩; rfl)
  have hfuel : l.cursor.fuel = (m + tail.length + 1) + 1 := by
    simp only [fuel, h, length_lineAt, List.length_append]
    omega
  have hpeek : l.cursor.peek = '\n' := peek_of_rest h
  have hcomment : (if l.cursor.peek == '#' then l.cursor.lineRest.2 else l.cursor) = l.cursor :=
    if_neg (by rw [hpeek]; decide)
  rw [hfuel, toNextToken, hskip, hcomment, hpeek, if_pos (by decide), lineBreak_newline h,
    toNextToken_spaces _ (show _ = List.replicate m ' ' ++ tail by simp [h, lineAt]) htail]
  rfl

/-! ## The kind of the next token -/

/-- A plain scalar starts with no indicator, and at the margin with no part of a document mark. -/
theorem Stands.fetch_plain (h : Stands l (ch :: rest) T indent outer) (hgap : isGap ch = false)
    (hleading : isLeadingIndicator ch (rest.headD '\x00') = false)
    (hmargin : l.cursor.column = 0 → ch ≠ '-' ∧ ch ≠ '.') :
    l.fetch = l.fetchScalar true fun c => .ok (plainScalar false (l.indent + 1).toNat c) := by
  have hpeek := peek_of_rest h.rest
  have hone := peek_one_of_rest h.rest
  obtain ⟨-, -, -, hend⟩ := isGap_eq_false_iff.mp hgap
  -- what starts a document mark is a mark only at the margin
  have hmarks (mark : Char) (hmark : l.cursor.column = 0 → ch ≠ mark) :
      (l.cursor.column == 0 && l.cursor.startsWith [mark, mark, mark]) = false := by
    by_cases hzero : l.cursor.column = 0
    · simp [startsWith, h.rest, List.isPrefixOf, Ne.symm (hmark hzero)]
    · simp [hzero]
  have hdashes := hmarks '-' fun hzero => (hmargin hzero).1
  have hdots := hmarks '.' fun hzero => (hmargin hzero).2
  simp only [isLeadingIndicator, Bool.or_eq_false_iff, Bool.and_eq_false_imp] at hleading
  obtain ⟨hne, hlone⟩ := hleading
  simp only [String.reduceToList, List.contains_eq_mem, List.mem_cons, List.not_mem_nil, or_false,
    Bool.decide_or, Bool.or_eq_false_iff, decide_eq_false_iff_not, Bool.or_eq_true, beq_iff_eq,
    List.headD_eq_head?_getD] at hne hlone
  -- three indicators may start a plain scalar, if no gap comes after them
  by_cases hch : ch = '-' ∨ ch = '?' ∨ ch = ':'
  · have hafter := hlone (by tauto)
    simp [fetch, hpeek, hone, h.flow, atEnd, hend, hdashes, hdots, hne, startsPlain, isIndicator,
      hafter, hch]
  · rw [not_or, not_or] at hch
    simp [fetch, hpeek, hone, h.flow, atEnd, hend, hdashes, hdots, hne, startsPlain, isIndicator,
      hch, hgap]

theorem Stands.fetch_quoted {double : Bool} (h : Stands l (mark double :: rest) T indent outer) :
    l.fetch = l.fetchScalar false (quotedScalar double) := by
  have hpeek := peek_of_rest h.rest
  cases double <;> simp [fetch, hpeek, mark, atEnd, startsWith, h.rest]

theorem Stands.fetch_entry (h : Stands l ('-' :: ' ' :: rest) T indent outer) :
    l.fetch = l.fetchMark .blockEntry .blockSequenceStart true := by
  have hpeek := peek_of_rest h.rest
  have hone := peek_one_of_rest h.rest
  have hspace : isGap ' ' = true := by decide
  simp [fetch, hpeek, hone, atEnd, startsWith, h.rest, hspace]

theorem fetch_value (h : l.cursor.rest = ':' :: rest) (hgap : isGap (rest.headD '\x00') = true) :
    l.fetch = l.fetchValue := by
  have hpeek := peek_of_rest h
  have hone : isGap (l.cursor.peek 1) = true := by rwa [peek_one_of_rest h]
  simp [fetch, hpeek, hone, atEnd, startsWith, h, isIndicator]

/-! ## Steps -/

/-- The next token is ahead, at a column where a key may start.  The blocks that are deeper are
still to be closed. -/
def Poised (l : Lexer) (rest : List Char) (column : ℕ) (T : List Token) (indent : ℤ)
    (outer : List ℤ) : Prop :=
  ∃ l', Stands l' rest T indent outer ∧ l'.cursor.column = column ∧ l'.keyAllowed = true ∧
    rest.length ≤ l.cursor.rest.length ∧ l.step = (closeBlocks column l'.outer l').fetch

theorem Stands.exists_step (h : Stands l rest T indent outer)
    (hl : toNextToken l'.cursor.fuel l' = l) :
    ∃ l₁, Stands l₁ rest T indent outer ∧ l₁.cursor = l.cursor ∧ l₁.keyAllowed = l.keyAllowed ∧
      l'.step = (closeBlocks l.cursor.column l₁.outer l₁).fetch := by
  obtain ⟨p, hdrop, hstands⟩ := h.exists_dropStale
  refine ⟨_, hstands, rfl, rfl, ?_⟩
  rw [step, hl, hdrop]
  exact congrArg fetch (if_pos hstands.flow)

/-- A scalar behind the colon of a key, or behind the hyphen of a list item. -/
theorem Stands.exists_step_space (h : Stands l (' ' :: ch :: rest) T indent outer)
    (hgap : isGap ch = false) (hhash : ch ≠ '#') (hcolumn : indent < l.cursor.column) :
    ∃ l', Stands l' (ch :: rest) T indent outer ∧ l'.cursor.column = l.cursor.column + 1 ∧
      l.step = l'.fetch := by
  obtain ⟨-, hspace, hbreak, -⟩ := isGap_eq_false_iff.mp hgap
  have hnext : toNextToken l.cursor.fuel l = { l with cursor := advance 1 l.cursor } :=
    toNextToken_spaces _ (show l.cursor.rest = List.replicate 1 ' ' ++ ch :: rest from h.rest)
      ⟨hspace, hbreak, hhash⟩
  have hcol : (advance 1 l.cursor).column = l.cursor.column + 1 := by
    rw [advance_one, next_inline h.rest (by decide)]
  have hstands : Stands { l with cursor := advance 1 l.cursor } (ch :: rest) T indent outer :=
    { h with rest := by simp [h.rest] }
  obtain ⟨l', hstands', hcursor, -, hstep⟩ := hstands.exists_step hnext
  have hcol' : l'.cursor.column = l.cursor.column + 1 := by rw [hcursor]; exact hcol
  refine ⟨l', hstands', hcol', ?_⟩
  rw [hstep, ← hcursor, closeBlocks_eq (by rw [hstands'.indent, hcol']; omega)]

theorem Stands.poised (h : Stands l rest T indent outer) (hl : toNextToken l'.cursor.fuel l' = l)
    (hcolumn : l.cursor.column = column) (hkey : l.keyAllowed = true)
    (hlength : rest.length ≤ l'.cursor.rest.length) : Poised l' rest column T indent outer := by
  obtain ⟨l₁, hstands, hcursor, hallowed, hstep⟩ := h.exists_step hl
  exact ⟨l₁, hstands, hcursor ▸ hcolumn, hallowed ▸ hkey, hlength, hcolumn ▸ hstep⟩

/-- A scalar ended inside its line, and a new line follows. -/
theorem Stands.poised_lineAt (h : Stands l (lineAt m ++ tail) T indent outer)
    (htail : Resumes tail) : Poised l tail m T indent outer := by
  have hline := advance_newline
    (show l.cursor.rest = '\n' :: (List.replicate m ' ' ++ tail) from h.rest)
  have hstands : Stands { l with
      cursor := advance (m + 1) l.cursor
      keyAllowed := l.keyAllowed || l.flow == 0 } tail T indent outer :=
    { h with rest := congrArg Cursor.rest hline }
  refine hstands.poised (toNextToken_lineAt h.rest htail.headD) (congrArg Cursor.column hline)
    (by simp [h.flow]) (by simp [h.rest])

/-- A scalar ended with its line. -/
theorem Stands.poised_here (h : Stands l tail T indent outer) (htail : Resumes tail)
    (hcolumn : l.cursor.column = m) (hkey : l.keyAllowed = true) :
    Poised l tail m T indent outer :=
  h.poised (toNextToken_spaces l.cursor.rest.length (n := 0) h.rest htail.headD) hcolumn hkey
    (Nat.le_of_eq (congrArg List.length h.rest.symm))

/-- The innermost block is closed before a line that is less indented. -/
theorem Poised.close {o : ℤ} (h : Poised l rest m T indent (o :: outer)) (hm : m < indent) :
    Poised l rest m (T ++ [.blockEnd]) o outer := by
  obtain ⟨l', hstands, hcolumn, hkey, hlength, hstep⟩ := h
  refine ⟨{ l'.push .blockEnd with indent := o, outer := outer }, ⟨hstands.rest, ?_, hstands.flow,
    rfl, rfl, hstands.candidates⟩, hcolumn, hkey, hlength, ?_⟩
  · simp [push, hstands.tokens]
  · rw [hstep, hstands.outer, closeBlocks, if_pos (by rw [hstands.indent]; exact hm)]

theorem Poised.exists_fetch (h : Poised l rest column T indent outer) (hindent : indent ≤ column) :
    ∃ l', Stands l' rest T indent outer ∧ l'.cursor.column = column ∧ l'.keyAllowed = true ∧
      rest.length ≤ l.cursor.rest.length ∧ l.step = l'.fetch := by
  obtain ⟨l', hstands, hcolumn, hkey, hlength, hstep⟩ := h
  rw [closeBlocks_eq (by rwa [hstands.indent])] at hstep
  exact ⟨l', hstands, hcolumn, hkey, hlength, hstep⟩

/-! ## Scalars -/

theorem Stands.exists_fetchScalar (h : Stands l rest T indent outer) (plain : Bool)
    (read : Cursor → Reads Scalar) {s : Scalar} (hindent : indent ≠ l.cursor.column)
    (hread : read l.cursor = .ok s) :
    ∃ l', l.fetchScalar plain read = .ok l' ∧
      Stands l' s.after.rest (T ++ [.scalar (String.ofList s.text) plain]) indent outer ∧
      l'.cursor = s.after ∧ l'.keyAllowed = s.broken := by
  obtain ⟨ks, hsave, hstands⟩ := h.exists_saveCandidate hindent
  refine ⟨{ ({ l with candidates := ks } : Lexer).push (.scalar (String.ofList s.text) plain) with
    cursor := s.after, keyAllowed := s.broken }, ?_, ⟨rfl, ?_, hstands.flow, hstands.indent,
    hstands.outer, hstands.candidates⟩, rfl, rfl⟩
  · simp only [fetchScalar, hsave, Except.bind, bind, hread]
    rfl
  · simp [push, h.tokens]

/-- A scalar as it can be written, with the column of its further lines. -/
inductive Scribed (column : ℕ) : Bool → List Char → List Char → Prop
  | plain {text out : List Char} (h : Worded column text out)
      (hindicators : hasIndicator text = false) : Scribed column true text out
  | quoted {text out : List Char} (double : Bool) (h : QuotedReads double out text) :
      Scribed column false text (mark double :: (out ++ [mark double]))

/-- A scalar behind a space, at the end of its line. -/
theorem Scribed.exists_leads {plain : Bool} (h : Scribed column plain text out)
    (hl : Stands l (' ' :: (out ++ (lineAt m ++ tail))) T n outer) (hstart : n < l.cursor.column)
    (hcolumn : n < column) (hm : m ≤ n) (htail : Resumes tail) :
    ∃ l', Leads l l' ∧ Poised l' tail m (T ++ [.scalar (String.ofList text) plain]) n outer := by
  cases h with
  | plain hworded hindicators =>
      -- the first character tells that a plain scalar comes; it is read up to the end of its lines
      obtain ⟨ch, out', rfl, hgap, hleading⟩ :=
        hworded.exists_start hindicators (lineAt m ++ tail) rfl
      have hhash : ch ≠ '#' := by
        rintro rfl
        cases hleading
      obtain ⟨l₁, hstands, hcol, hstep⟩ := hl.exists_step_space hgap hhash (by omega)
      have hread : plainScalar false (n + 1) l₁.cursor = _ := plainScalar_of_worded hworded
        (unmarked_of_hasIndicator hindicators) htail hstands.rest (by omega) (by omega) (by omega)
      have hindent : (l₁.indent + 1).toNat = n + 1 := by rw [hstands.indent]; rfl
      have hfetch := hstands.fetch_plain hgap hleading fun hzero => by omega
      rw [hindent] at hfetch
      obtain ⟨l₂, hscalar, hafter, hcursor, hkey⟩ := hstands.exists_fetchScalar true
        (fun c => .ok (plainScalar false (n + 1) c)) (by omega) (congrArg Except.ok hread)
      rw [← hfetch, ← hstep] at hscalar
      -- the scalar stops before the line break, where a new line starts
      have hend : (advance (ch :: out').length l₁.cursor).rest =
          '\n' :: (List.replicate m ' ' ++ tail) := rest_advance_append hstands.rest
      have hline := advance_newline hend
      rw [← advance_add] at hline
      rw [hline] at hafter hcursor
      refine ⟨l₂, leads_of_step hscalar (by simp [hafter.tokens]) ?_,
        hafter.poised_here htail (congrArg Cursor.column hcursor) hkey⟩
      rw [hafter.rest, hl.rest]
      simp only [List.length_cons, List.length_append]
      omega
  | @quoted text out double hreads =>
      -- the opening quote tells that a quoted scalar comes; it stops behind the closing one
      have hgap : isGap (mark double) = false := by cases double <;> decide
      have hhash : mark double ≠ '#' := by cases double <;> decide
      rw [List.cons_append, List.append_assoc] at hl
      obtain ⟨l₁, hstands, hcol, hstep⟩ := hl.exists_step_space hgap hhash (by omega)
      have hmarks : l₁.cursor.rest = mark double :: (out ++ mark double :: (lineAt m ++ tail)) :=
        hstands.rest
      have hread := hreads.quotedScalar_eq hmarks nofun
      obtain ⟨l₂, hscalar, hafter, hcursor, hkey⟩ :=
        hstands.exists_fetchScalar false (quotedScalar double) (by omega) hread
      rw [← hstands.fetch_quoted, ← hstep] at hscalar
      have hrest : (advance (out.length + 2) l₁.cursor).rest = lineAt m ++ tail := by
        rw [rest_advance, hstands.rest]
        simp
      rw [hrest] at hafter
      refine ⟨l₂, leads_of_step hscalar (by simp [hafter.tokens]) ?_, hafter.poised_lineAt htail⟩
      rw [hafter.rest, hl.rest]
      simp only [List.length_cons, List.length_append]
      omega

/-! ## Keys -/

theorem insertIdx_length_append {α : Type} (front back : List α) (x : α) :
    (front ++ back).insertIdx front.length x = front ++ x :: back := by
  induction front with
  | nil => cases back <;> rfl
  | cons y front ih => exact congrArg (y :: ·) ih

/-- A key that is deeper than the innermost block starts a mapping. -/
def opening (indent : ℤ) (column : ℕ) : List Token :=
  if indent < column then [.blockMappingStart] else []

/-- The columns of the blocks around a key. -/
def outerOf (indent : ℤ) (column : ℕ) (outer : List ℤ) : List ℤ :=
  if indent < column then indent :: outer else outer

/-- A lexer behind a token that may be a key, with a colon next.  Only this key may be required. -/
structure Named (l : Lexer) (t : Token) (rest : List Char) (column : ℕ) (T : List Token)
    (indent : ℤ) (outer : List ℤ) (k : KeyCandidate) (ks : List (ℕ × KeyCandidate)) : Prop where
  rest : l.cursor.rest = ':' :: rest
  tokens : l.tokens = (T ++ [t]).toArray
  flow : l.flow = 0
  indent : l.indent = indent
  outer : l.outer = outer
  candidates : l.candidates = (0, k) :: ks
  others : ∀ c ∈ ks, c.2.required = false
  place : k.place = T.length
  line : k.line = l.cursor.line
  index : l.cursor.index - k.index ≤ maxKeyLength
  behind : column ≤ l.cursor.column
  column : k.column = column

section Colon

variable {t : Token} {k : KeyCandidate} {ks : List (ℕ × KeyCandidate)}

theorem Named.exists_dropStale (h : Named l t rest column T indent outer k ks) :
    ∃ l' ks', l.dropStale = .ok l' ∧ Named l' t rest column T indent outer k ks' ∧
      l'.cursor = l.cursor := by
  have hfresh : (k.line != l.cursor.line || decide (maxKeyLength < l.cursor.index - k.index)) =
      false := by
    simp [h.line, h.index]
  have hcalm : ¬ (l.candidates.any fun c => (c.2.line != l.cursor.line ||
      decide (maxKeyLength < l.cursor.index - c.2.index)) && c.2.required) = true := by
    rw [Bool.not_eq_true, h.candidates, List.any_cons, hfresh, Bool.false_and, Bool.false_or,
      List.any_eq_false]
    intro c hc
    simp [h.others c hc]
  refine ⟨_, ks.filter fun c => !(c.2.line != l.cursor.line ||
      decide (maxKeyLength < l.cursor.index - c.2.index)), if_neg hcalm,
    { h with candidates := ?_, others := fun c hc => h.others c (List.mem_filter.mp hc).1 }, rfl⟩
  exact (congrArg _ h.candidates).trans (List.filter_cons_of_pos (congrArg not hfresh))

/-- The colon behind a key puts the key's mark in front of it. -/
theorem Named.exists_fetchValue (h : Named l t rest column T indent outer k ks)
    (hindent : indent ≤ column) :
    ∃ l', l.fetchValue = .ok l' ∧ l'.cursor = l.cursor.next ∧
      Stands l' rest (T ++ (opening indent column ++ [.key, t, .value])) column
        (outerOf indent column outer) := by
  have hk : l.candidate? = some k := by simp [candidate?, h.candidates, h.flow]
  -- the key is the only candidate on its level
  have hkeep : ∀ c ∈ l.candidates.filter (·.1 != l.flow), c.2.required = false := by
    intro c hc
    rw [h.candidates, h.flow, List.filter_cons_of_neg (by simp)] at hc
    exact h.others c (List.mem_filter.mp hc).1
  have hinsert : l.tokens.insertIdxIfInBounds k.place .key = (T ++ [.key, t]).toArray := by
    rw [h.tokens, h.place, List.insertIdxIfInBounds_toArray, insertIdx_length_append]
  rw [fetchValue, hk]
  dsimp only
  rw [if_pos h.flow, hinsert, openBlock, h.column, h.place]
  split
  -- a deeper key opens a mapping, another one goes on with the mapping that is open
  · next hdeeper =>
      rw [h.indent] at hdeeper
      refine ⟨_, rfl, rfl, ⟨by simp [push, forward, h.rest], ?_, h.flow, rfl, ?_, hkeep⟩⟩
      · simp [push, forward, opening, hdeeper, insertIdx_length_append]
      · simp [push, forward, outerOf, hdeeper, h.indent, h.outer]
  · next hsame =>
      rw [h.indent] at hsame
      refine ⟨_, rfl, rfl, ⟨by simp [push, forward, h.rest], ?_, h.flow, ?_, ?_, hkeep⟩⟩
      · simp [push, forward, opening, hsame]
      · simp only [push, forward, h.indent]
        omega
      · simp [push, forward, outerOf, hsame, h.outer]

theorem Named.exists_step (h : Named l t rest column T indent outer k ks)
    (hindent : indent ≤ column) (hgap : isGap (rest.headD '\x00') = true) :
    ∃ l', l.step = .ok l' ∧ l'.cursor = l.cursor.next ∧
      Stands l' rest (T ++ (opening indent column ++ [.key, t, .value])) column
        (outerOf indent column outer) := by
  -- the colon follows at once, and nothing has become stale since the key
  have hstay : toNextToken l.cursor.fuel l = l :=
    toNextToken_spaces l.cursor.rest.length (n := 0) h.rest (by rw [List.headD_cons]; decide)
  obtain ⟨l₁, ks', hdrop, h₁, hcursor⟩ := h.exists_dropStale
  have hle : l₁.indent ≤ l₁.cursor.column := by
    have := h₁.behind
    rw [h₁.indent]
    omega
  obtain ⟨l', hvalue, hnext, hstands⟩ := h₁.exists_fetchValue hindent
  refine ⟨l', ?_, by rw [hnext, hcursor], hstands⟩
  rw [step, hstay, hdrop]
  change (l₁.unwind l₁.cursor.column).fetch = _
  rw [unwind, if_pos h₁.flow, closeBlocks_eq hle, fetch_value h₁.rest hgap, hvalue]

end Colon

theorem Poised.exists_named (h : Poised l (key ++ ':' :: rest) column T indent outer)
    (hkey : Label key) (hindent : indent ≤ column) (hgap : isGap (rest.headD '\x00') = true) :
    ∃ l' k ks, l.step = .ok l' ∧
      Named l' (.scalar (String.ofList key) true) rest column T indent outer k ks := by
  obtain ⟨l₁, hstands, hcol, hallowed, hlength, hstep⟩ := h.exists_fetch hindent
  obtain ⟨ch, key', heq, hch⟩ := hkey.word.exists_cons
  have hmem : ch ∈ key := by simp [heq]
  have hahead : Stands l₁ (ch :: (key' ++ ':' :: rest)) T indent outer := by
    rwa [heq] at hstands
  have hfetch := hahead.fetch_plain hch (hkey.isLeadingIndicator_eq_false hmem _)
    fun _ => ⟨hkey.ne hmem (by decide), hkey.ne hmem (by decide)⟩
  have hread : plainScalar false (l₁.indent + 1).toNat l₁.cursor = _ :=
    plainScalar_of_label hkey hstands.rest hgap
  have hpassed := advance_inline hstands.rest hkey.word.isInline
  -- the scalar is remembered as a possible key before the colon is seen
  let k : KeyCandidate := ⟨l₁.tokens.size, l₁.flow == 0 && l₁.indent == l₁.cursor.column,
    l₁.cursor.index, l₁.cursor.line, l₁.cursor.column⟩
  let ks := l₁.candidates.filter (·.1 != l₁.flow)
  have hsave : l₁.saveCandidate = .ok { l₁ with candidates := (l₁.flow, k) :: ks } := by
    rw [saveCandidate, if_pos hallowed, hstands.dropCandidate_eq]
    rfl
  refine ⟨{ l₁ with
    tokens := l₁.tokens.push (.scalar (String.ofList key) true)
    cursor := advance key.length l₁.cursor
    candidates := (l₁.flow, k) :: ks
    keyAllowed := false }, k, ks, ?_, ?_⟩
  · rw [hstep, hfetch, fetchScalar, hsave]
    simp only [bind, Except.bind, hread]
    rfl
  · exact {
      rest := congrArg Cursor.rest hpassed
      tokens := by simp [hstands.tokens]
      flow := hstands.flow
      indent := hstands.indent
      outer := hstands.outer
      candidates := by simp [hstands.flow]
      others := fun c hc => hstands.candidates c (List.mem_filter.mp hc).1
      place := by simp [k, hstands.tokens]
      line := by simp only [hpassed, k]
      index := by
        have := hkey.short
        simp only [hpassed, k, maxKeyLength]
        omega
      column := hcol
      behind := by simp only [hpassed]; omega }

/-- A key and its colon. -/
theorem Poised.exists_key (h : Poised l (key ++ ':' :: rest) column T indent outer)
    (hkey : Label key) (hindent : indent ≤ column) (hgap : isGap (rest.headD '\x00') = true) :
    ∃ l', Leads l l' ∧ column < l'.cursor.column ∧
      Stands l' rest
        (T ++ (opening indent column ++ [.key, .scalar (String.ofList key) true, .value])) column
        (outerOf indent column outer) := by
  obtain ⟨l₁, k, ks, hfirst, hnamed⟩ := h.exists_named hkey hindent hgap
  obtain ⟨l', hsecond, hnext, hstands⟩ := hnamed.exists_step hindent hgap
  obtain ⟨-, -, -, -, hlength, -⟩ := h
  have hcolumn := hnamed.behind
  refine ⟨l', (leads_of_step hfirst (by simp [hnamed.tokens]) ?_).trans
    (leads_of_step hsecond (by simp [hstands.tokens, opening]) ?_), ?_, hstands⟩
  · have hpos := List.length_pos_iff.mpr hkey.nonempty
    rw [hnamed.rest]
    simp only [List.length_append] at hlength
    omega
  · simp [hnext, hnamed.rest]
  · rw [hnext, next_inline hnamed.rest (by decide)]
    exact Nat.lt_succ_of_le hcolumn

/-! ## List items and the end -/

/-- The hyphen of an item in a list that is at its key's column. -/
theorem Poised.exists_entry (h : Poised l ('-' :: ' ' :: rest) n T n outer) :
    ∃ l', Leads l l' ∧ n < l'.cursor.column ∧
      Stands l' (' ' :: rest) (T ++ [.blockEntry]) n outer := by
  obtain ⟨l₁, hstands, hcol, hallowed, hlength, hstep⟩ := h.exists_fetch (Int.le_refl _)
  -- an item at the column of its key opens no list of its own
  have hopen : l₁.openBlock l₁.cursor.column l₁.tokens.size .blockSequenceStart = l₁ :=
    if_neg (by rw [hstands.indent, hcol]; omega)
  have hfetch : l.step = .ok { l₁ with
      tokens := l₁.tokens.push .blockEntry
      cursor := l₁.cursor.next
      candidates := l₁.candidates.filter (·.1 != l₁.flow)
      keyAllowed := true } := by
    rw [hstep, hstands.fetch_entry, fetchMark, if_pos hstands.flow, hopen,
      if_neg (by simp [hallowed])]
    dsimp only
    rw [hstands.dropCandidate_eq]
    rfl
  have hnext := next_inline hstands.rest (by decide)
  refine ⟨_, leads_of_step hfetch (by simp) ?_, ?_, ⟨congrArg Cursor.rest hnext,
    by simp [hstands.tokens], hstands.flow, hstands.indent, hstands.outer,
    fun c hc => hstands.candidates c (List.mem_filter.mp hc).1⟩⟩
  · simp only [hnext]
    simp only [List.length_cons] at hlength ⊢
    omega
  · simp only [hnext]
    omega

/-- At the end of the text the outermost mapping is closed. -/
theorem Poised.run_eq (h : Poised l [] 0 T 0 [-1]) (fuel : ℕ) :
    run (fuel + 1) l = (T ++ [Token.blockEnd, .streamEnd]).toArray := by
  obtain ⟨l₁, hstands, hcol, hallowed, hlength, hstep⟩ := h.exists_fetch (Int.le_refl _)
  have hclosed : l₁.unwind (-1) = { l₁.push .blockEnd with indent := -1, outer := [] } := by
    rw [unwind, if_pos hstands.flow, hstands.outer, closeBlocks,
      if_pos (by rw [hstands.indent]; decide)]
    rfl
  have hclosed' : Stands { l₁.push .blockEnd with indent := -1, outer := [] } []
      (T ++ [.blockEnd]) (-1) [] :=
    ⟨hstands.rest, by simp [push, hstands.tokens], hstands.flow, rfl, rfl, hstands.candidates⟩
  have hpeek : l₁.cursor.peek = '\x00' := peek_of_rest_nil hstands.rest 0
  have hfetch : l₁.fetch = l₁.fetchStreamEnd := if_pos (by rw [hpeek]; rfl)
  rw [run_succ, hstep, hfetch, fetchStreamEnd, hclosed, hclosed'.dropCandidate_eq]
  simp [push, hstands.tokens, bind, Except.bind, pure, Except.pure]

end Lexer

end LoopPainter.Yaml
