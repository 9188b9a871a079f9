import LoopPainter.Proofs.Text.Digits
import LoopPainter.Proofs.Yaml.Cursor
import LoopPainter.Proofs.Yaml.Layout

/-!
# Reading quoted scalars

What is written between quotes is read from the front, one part after the other (`QuotedReads`).
Single quotes give back the text up to the breaks in it (`quotedReads_laid`), and double quotes the
text itself (`quotedReads_escaped`).
-/

namespace LoopPainter.Yaml

open Cursor

variable {double : Bool} {out text bs tail rest : List Char} {ch b : Char} {c : Cursor} {indent : ℕ}

/-- The quotation mark. -/
def mark (double : Bool) : Char :=
  if double then '"' else '\''

/-- The written characters are read as the text, and then the closing mark is passed. -/
def QuotedReads (double : Bool) (out text : List Char) : Prop :=
  ∀ (c : Cursor) (tail : List Char) (fuel : ℕ) (done : List Char),
    c.rest = out ++ mark double :: tail → tail.head? ≠ some '\'' → out.length < fuel →
      quotedRuns double fuel done c = .ok (done ++ text, advance (out.length + 1) c)

/-- The character that a quoted scalar goes on with. -/
def nextQuoted (double : Bool) (out : List Char) : Char :=
  out.headD (mark double)

theorem exists_rest_eq_nextQuoted (h : c.rest = out ++ mark double :: tail) :
    ∃ rest, c.rest = nextQuoted double out :: rest := by
  cases out with
  | nil => exact ⟨tail, h⟩
  | cons ch out => exact ⟨out ++ mark double :: tail, h⟩

/-! ## The end and single characters -/

theorem quotedReads_nil : QuotedReads double [] [] := by
  intro c tail fuel done h htail hfuel
  cases fuel with
  | zero => cases hfuel
  | succ fuel =>
      have hpeek := peek_of_rest (List.nil_append _ ▸ h)
      have hdoubled : (!double && mark double == '\'' && c.peek 1 == '\'') = false := by
        rw [peek_one_of_rest (List.nil_append _ ▸ h)]
        cases tail with
        | nil => simp
        | cons ch tail =>
            have hne : ch ≠ '\'' := by simpa using htail
            simp [hne]
      rw [quotedRuns]
      simp only [hpeek, hdoubled]
      simp [mark, advance_one]

/-- A character that is read as part of a run. -/
def isOrdinary (ch : Char) : Bool :=
  !(ch == '\'' || ch == '"' || ch == '\\' || isGap ch)

theorem isOrdinary_iff :
    isOrdinary ch = true ↔ ch ≠ '\'' ∧ ch ≠ '"' ∧ ch ≠ '\\' ∧ isGap ch = false := by
  simp [isOrdinary, and_assoc]

theorem quotedRuns_ordinary (h : c.rest = ch :: rest) (hch : isOrdinary ch = true) (fuel : ℕ)
    (done : List Char) :
    quotedRuns double (fuel + 1) done c =
      quotedRuns double fuel (done ++ (c.span isOrdinary).1) (c.span isOrdinary).2 := by
  obtain ⟨hsingle, hdouble, hslash, hgap⟩ := isOrdinary_iff.mp hch
  have hmark : (ch == if double then '"' else '\'') = false := by
    cases double <;> simpa
  rw [← beq_eq_false_iff_ne] at hsingle hdouble hslash
  rw [quotedRuns]
  simp only [peek_of_rest h, hmark, hsingle, hdouble, hslash, hgap, Bool.and_false, Bool.false_and,
    Bool.or_self, Bool.false_eq_true, if_false]
  rfl

theorem span_cons {p : Char → Bool} (h : c.rest = ch :: rest) (hch : p ch = true) :
    c.span p = (ch :: (c.next.span p).1, (c.next.span p).2) := by
  simp [span, h, hch, advance]

/-- A run is read character by character. -/
theorem QuotedReads.ordinary (h : QuotedReads double out text) (hch : isOrdinary ch = true) :
    QuotedReads double (ch :: out) (ch :: text) := by
  intro c tail fuel done hrest htail hfuel
  cases fuel with
  | zero => cases hfuel
  | succ fuel =>
      have hnext : c.next.rest = out ++ mark double :: tail := by simp [hrest]
      have hlt : out.length < fuel := by simpa using hfuel
      rw [quotedRuns_ordinary hrest hch, span_cons hrest hch]
      obtain ⟨rest, hrest'⟩ := exists_rest_eq_nextQuoted hnext
      rw [List.length_cons, advance]
      by_cases hmore : isOrdinary (nextQuoted double out) = true
      · -- the run goes on: what is left of it is read with the same fuel
        have hread := h c.next tail (fuel + 1) (done ++ [ch]) hnext htail (by omega)
        rw [quotedRuns_ordinary hrest' hmore] at hread
        simpa using hread
      · have hspan : c.next.span isOrdinary = ([], c.next) := by
          refine span_none fun ch' hch' => ?_
          rw [hrest'] at hch'
          cases hch'
          simpa using hmore
        rw [hspan]
        simpa using h c.next tail fuel (done ++ [ch]) hnext htail hlt

/-- A part that is read in one go. -/
theorem QuotedReads.step (h : QuotedReads double out text) (a piece : List Char) (ha : a ≠ [])
    (hstep : ∀ (c : Cursor) (rest : List Char) (fuel : ℕ) (done : List Char),
      c.rest = a ++ nextQuoted double out :: rest →
        quotedRuns double (fuel + 1) done c =
          quotedRuns double fuel (done ++ piece) (advance a.length c)) :
    QuotedReads double (a ++ out) (piece ++ text) := by
  intro c tail fuel done hrest htail hfuel
  rw [List.append_assoc] at hrest
  rw [List.length_append] at hfuel ⊢
  have hpos := List.length_pos_iff.mpr ha
  cases fuel with
  | zero => omega
  | succ fuel =>
      have hafter := rest_advance_append hrest
      obtain ⟨rest, hnext⟩ := exists_rest_eq_nextQuoted hafter
      rw [hstep c rest fuel done (by rw [hrest, ← hafter, hnext]),
        h _ tail fuel _ hafter htail (by omega), Nat.add_assoc, advance_add a.length,
        List.append_assoc]

/-- A quotation mark or a backslash that means nothing between these marks. -/
theorem QuotedReads.plain (h : QuotedReads double out text)
    (hch : if double then ch = '\'' else ch = '"' ∨ ch = '\\') :
    QuotedReads double (ch :: out) (ch :: text) := by
  refine h.step [ch] [ch] nofun fun c rest fuel done hrest => ?_
  rw [quotedRuns]
  simp only [peek_of_rest hrest]
  cases double with
  | true =>
      obtain rfl : ch = '\'' := hch
      rfl
  | false =>
      rcases (show ch = '"' ∨ ch = '\\' from hch) with rfl | rfl <;> rfl

/-- Between single quotes the mark is written twice. -/
theorem QuotedReads.doubled (h : QuotedReads false out text) :
    QuotedReads false ('\'' :: '\'' :: out) ('\'' :: text) := by
  refine h.step ['\'', '\''] ['\''] nofun fun c rest fuel done hrest => ?_
  rw [quotedRuns]
  simp only [peek_of_rest hrest, peek_one_of_rest hrest]
  rfl

/-! ## White space -/

theorem isGap_eq_false_iff :
    isGap ch = false ↔ ch ≠ '\t' ∧ ch ≠ ' ' ∧ isBreak ch = false ∧ ch ≠ '\x00' := by
  simp [isGap, isSpaceOrEnd, isBreakOrEnd, atEnd]

/-- Spaces and tabs end before a character that is no white space. -/
theorem span_blank_of_gap (a : List Char) (h : c.rest = a ++ ch :: rest)
    (ha : ∀ ch ∈ a, ch = ' ') (hch : isGap ch = false) :
    c.span (fun ch => ch == ' ' || ch == '\t') = (a, advance a.length c) := by
  obtain ⟨htab, hspace, -, -⟩ := isGap_eq_false_iff.mp hch
  refine span_append h (fun ch hch => by simp [ha ch hch]) ?_
  rintro _ ⟨⟩
  simp [htab, hspace]

theorem quotedGap_spaces {n : ℕ} (h : c.rest = List.replicate n ' ' ++ ch :: rest)
    (hch : isGap ch = false) :
    quotedGap c = .ok (List.replicate n ' ', advance n c) := by
  obtain ⟨-, -, hbreak, hend⟩ := isGap_eq_false_iff.mp hch
  have hspan := span_blank_of_gap _ h (fun _ => List.eq_of_mem_replicate) hch
  rw [List.length_replicate] at hspan
  have hafter : (advance n c).rest = ch :: rest := by simp [h]
  simp [quotedGap, hspan, peek_of_rest hafter, atEnd, hend, hbreak]

theorem lineBreak_of_isWrittenBreak (h : c.rest = b :: rest) (hb : isWrittenBreak b = true) :
    c.lineBreak = ([Piece.seenBreak b], c.next) := by
  simp only [isWrittenBreak, Bool.or_eq_true, beq_iff_eq] at hb
  rw [lineBreak, peek_of_rest h]
  rcases hb with ((rfl | rfl) | rfl) | rfl <;> rfl

theorem isBreak_of_isWrittenBreak (hb : isWrittenBreak b = true) : isBreak b = true := by
  simp only [isWrittenBreak, Bool.or_eq_true, beq_iff_eq] at hb
  rcases hb with ((rfl | rfl) | rfl) | rfl <;> rfl

theorem ne_of_isWrittenBreak (hb : isWrittenBreak b = true) :
    b ≠ '-' ∧ b ≠ '.' ∧ b ≠ ' ' ∧ b ≠ '\t' ∧ b ≠ '\x00' := by
  simp only [isWrittenBreak, Bool.or_eq_true, beq_iff_eq] at hb
  rcases hb with ((rfl | rfl) | rfl) | rfl <;> decide

/-- Breaks and indentation up to a character that is no white space. -/
theorem quotedBreaks_of_breaks {fuel : ℕ} (hindent : 0 < indent)
    (h : c.rest = bs ++ (List.replicate indent ' ' ++ ch :: rest))
    (hbs : ∀ b ∈ bs, isWrittenBreak b = true) (hch : isGap ch = false) (hfuel : bs.length < fuel) :
    quotedBreaks fuel c = .ok (bs.map Piece.seenBreak, advance (bs.length + indent) c) := by
  induction bs generalizing c fuel with
  | nil =>
      cases fuel with
      | zero => cases hfuel
      | succ fuel =>
          rw [List.nil_append] at h
          obtain ⟨n, rfl⟩ : ∃ n, indent = n + 1 := ⟨indent - 1, by omega⟩
          -- the indentation keeps the line from being a document mark
          have hmark : c.atDocumentMark = false :=
            atDocumentMark_eq_false (show c.rest = ' ' :: _ from h) (by decide) (by decide)
          have hspan := span_blank_of_gap _ h (fun _ => List.eq_of_mem_replicate) hch
          rw [List.length_replicate] at hspan
          have hafter : (advance (n + 1) c).rest = ch :: rest := by simp [h]
          obtain ⟨-, -, hbreak, -⟩ := isGap_eq_false_iff.mp hch
          simp [quotedBreaks, hmark, skip, hspan, peek_of_rest hafter, hbreak]
  | cons b bs ih =>
      cases fuel with
      | zero => cases hfuel
      | succ fuel =>
          rw [List.forall_mem_cons] at hbs
          rw [List.cons_append] at h
          obtain ⟨hhyphen, hdot, hspace, htab, -⟩ := ne_of_isWrittenBreak hbs.1
          have hskip : (c.skip fun ch => ch == ' ' || ch == '\t') = c := by
            rw [skip, span_none]
            rintro _ hb
            rw [h] at hb
            cases hb
            simp [hspace, htab]
          have hrest : quotedBreaks fuel c.next =
              .ok (bs.map Piece.seenBreak, advance (bs.length + indent) c.next) :=
            ih (by simp [h]) hbs.2 (by simpa using hfuel)
          rw [quotedBreaks, atDocumentMark_eq_false h hhyphen hdot]
          simp only [hskip, peek_of_rest h, isBreak_of_isWrittenBreak hbs.1,
            lineBreak_of_isWrittenBreak h hbs.1, hrest]
          rw [List.length_cons, Nat.succ_add, advance]
          rfl

theorem quotedGap_of_breaks (hindent : 0 < indent)
    (h : c.rest = b :: bs ++ (List.replicate indent ' ' ++ ch :: rest))
    (hb : isWrittenBreak b = true) (hbs : ∀ b ∈ bs, isWrittenBreak b = true)
    (hch : isGap ch = false) :
    quotedGap c = .ok (foldBreaks [Piece.seenBreak b] (bs.map Piece.seenBreak),
      advance (bs.length + 1 + indent) c) := by
  obtain ⟨-, -, hspace, htab, hend⟩ := ne_of_isWrittenBreak hb
  have hspan : (c.span fun ch => ch == ' ' || ch == '\t') = ([], c) := by
    refine span_none ?_
    rintro _ hb
    rw [h] at hb
    cases hb
    simp [hspace, htab]
  have hnext : c.next.rest = bs ++ (List.replicate indent ' ' ++ ch :: rest) := by simp [h]
  have hfuel : bs.length < c.next.fuel := by
    simp only [fuel, hnext, List.length_append]
    omega
  have hrest := quotedBreaks_of_breaks hindent hnext hbs hch hfuel
  rw [quotedGap, hspan]
  simp only [peek_of_rest h, isBreak_of_isWrittenBreak hb, lineBreak_of_isWrittenBreak h hb, hrest,
    atEnd, beq_eq_false_iff_ne.mpr hend]
  rw [Nat.add_right_comm, advance]
  rfl

/-- White space that is read in one go. -/
theorem QuotedReads.gap {a piece : List Char} (h : QuotedReads double out text) (ha : a ≠ [])
    (hhead : ∀ ch ∈ a.head?, isGap ch = true)
    (hgap : ∀ (c : Cursor) (rest : List Char), c.rest = a ++ nextQuoted double out :: rest →
      quotedGap c = .ok (piece, advance a.length c)) :
    QuotedReads double (a ++ out) (piece ++ text) := by
  refine h.step a piece ha fun c rest fuel done hrest => ?_
  cases a with
  | nil => exact absurd rfl ha
  | cons ch a =>
      have hch := hhead ch rfl
      -- white space is none of the characters that a quoted text treats on its own
      have hne (q : Char) (hq : isGap q = false) : (ch == q) = false := by
        rw [beq_eq_false_iff_ne]
        rintro rfl
        rw [hq] at hch
        cases hch
      have hmark : (ch == if double then '"' else '\'') = false := by
        cases double
        · exact hne _ (by decide)
        · exact hne _ (by decide)
      rw [quotedRuns]
      simp only [peek_of_rest hrest, hmark, hne '\'' (by decide), hne '"' (by decide),
        hne '\\' (by decide), hch, Bool.and_false, Bool.false_and, Bool.or_self,
        Bool.false_eq_true, if_false, if_true]
      rw [hgap c rest hrest]
      rfl

theorem QuotedReads.spaces {n : ℕ} (h : QuotedReads double out text)
    (hnext : isGap (nextQuoted double out) = false) :
    QuotedReads double (List.replicate n ' ' ++ out) (List.replicate n ' ' ++ text) := by
  cases n with
  | zero => exact h
  | succ n =>
      refine h.gap nofun (by rintro _ ⟨⟩; decide) fun c rest hrest => ?_
      rw [List.length_replicate]
      exact quotedGap_spaces hrest hnext

/-- Breaks with the indentation behind them. -/
theorem QuotedReads.breaks (h : QuotedReads double out text)
    (hnext : isGap (nextQuoted double out) = false) (hindent : 0 < indent)
    (hb : isWrittenBreak b = true) (hbs : ∀ b ∈ bs, isWrittenBreak b = true) :
    QuotedReads double (b :: bs ++ List.replicate indent ' ' ++ out)
      (foldBreaks [Piece.seenBreak b] (bs.map Piece.seenBreak) ++ text) := by
  refine h.gap nofun ?_ fun c rest hrest => ?_
  · rintro _ ⟨⟩
    simp [isGap, isSpaceOrEnd, isBreakOrEnd, isBreak_of_isWrittenBreak hb]
  · rw [List.append_assoc] at hrest
    rw [quotedGap_of_breaks hindent hrest hb hbs hnext]
    simp [Nat.add_right_comm]

/-- A line that is broken at a space. -/
theorem QuotedReads.fold (h : QuotedReads double out text)
    (hnext : isGap (nextQuoted double out) = false) (hindent : 0 < indent) :
    QuotedReads double (lineAt indent ++ out) (' ' :: text) := by
  have hfeed : isWrittenBreak '\n' = true := by decide
  have hnone : ∀ b ∈ ([] : List Char), isWrittenBreak b = true := nofun
  exact h.breaks hnext hindent hfeed hnone

/-! ## Texts between single quotes -/

variable {ps : List Piece}

theorem isGap_of_isSpecial (hspecial : isSpecial ch = false) (hspace : ch ≠ ' ')
    (hbreak : isWrittenBreak ch = false) : isGap ch = false := by
  have hne (q : Char) (hq : isSpecial q = true) : ch ≠ q := by
    rintro rfl
    rw [hq] at hspecial
    cases hspecial
  simp only [isWrittenBreak, Bool.or_eq_false_iff, beq_eq_false_iff_ne] at hbreak
  obtain ⟨⟨⟨hfeed, hnext⟩, hline⟩, hparagraph⟩ := hbreak
  have hreturn : ch ≠ '\r' := hne _ (by decide)
  rw [isGap_eq_false_iff]
  exact ⟨hne _ (by decide), hspace, by simp [isBreak, *], hne _ (by decide)⟩

theorem QuotedReads.run {cs : List Char} (h : QuotedReads false out text)
    (hcs : ∀ ch ∈ cs, ch ≠ '\'' ∧ isGap ch = false) :
    QuotedReads false (cs ++ out) (cs ++ text) := by
  induction cs with
  | nil => exact h
  | cons ch cs ih =>
      rw [List.forall_mem_cons] at hcs
      by_cases hplain : ch = '"' ∨ ch = '\\'
      · exact (ih hcs.2).plain hplain
      · rw [not_or] at hplain
        exact (ih hcs.2).ordinary (isOrdinary_iff.mpr ⟨hcs.1.1, hplain.1, hplain.2, hcs.1.2⟩)

/-- Pieces of a text without special characters. -/
structure Clear (ps : List Piece) : Prop where
  sound : ∀ p ∈ ps, p.Sound
  special : ∀ p ∈ ps, ∀ ch ∈ p.chars, isSpecial ch = false
  apart : Piece.Apart ps

theorem Unescaped.clear (h : Unescaped text) : Clear (Piece.ofText text) where
  sound := Piece.sound_ofText text
  special := fun _ hp ch hch => h.special ch (Piece.mem_of_mem_chars hp hch)
  apart := Piece.apart_ofText h.spaceBeforeBreak h.spaceAfterBreak

theorem Clear.of_cons {p : Piece} (h : Clear (p :: ps)) : Clear ps where
  sound := (List.forall_mem_cons.mp h.sound).2
  special := (List.forall_mem_cons.mp h.special).2
  apart := h.apart.2

theorem Clear.isWhite_head? {p : Piece} (h : Clear (p :: ps)) (hp : p.isWhite = true) :
    ∀ q ∈ ps.head?, q.isWhite = false := fun q hq =>
  (h.apart.1 q hq).resolve_left (by simp [hp])

theorem Clear.run {cs : List Char} (h : Clear (.run cs :: ps)) :
    cs ≠ [] ∧ ∀ ch ∈ cs, ch ≠ '\'' ∧ isGap ch = false := by
  obtain ⟨hne, hcs⟩ := h.sound _ List.mem_cons_self
  refine ⟨hne, fun ch hch => ?_⟩
  obtain ⟨hquote, hspace, hbreak⟩ := hcs ch hch
  exact ⟨hquote, isGap_of_isSpecial (h.special _ List.mem_cons_self ch hch) hspace hbreak⟩

/-- Pieces that do not start with white space are not written with it either. -/
theorem Clear.isGap_nextQuoted (hps : Clear ps) (h : Laid true indent ps out)
    (hhead : ∀ p ∈ ps.head?, p.isWhite = false) : isGap (nextQuoted false out) = false := by
  cases h with
  | nil => decide
  | quote h => rfl
  | spaces n h => cases hhead _ rfl
  | fold h => cases hhead _ rfl
  | breaks cs h => cases hhead _ rfl
  | run cs h =>
      obtain ⟨hne, hcs⟩ := hps.run
      cases cs with
      | nil => exact absurd rfl hne
      | cons ch cs => exact (hcs ch List.mem_cons_self).2

theorem writtenBreaks_sound {cs : List Char} (h : (Piece.breaks cs).Sound) :
    ∃ b bs, Piece.writtenBreaks cs = b :: bs ∧ isWrittenBreak b = true ∧
      ∀ b ∈ bs, isWrittenBreak b = true := by
  obtain ⟨hne, hcs⟩ := h
  unfold Piece.writtenBreaks
  split
  · exact ⟨'\n', cs, rfl, by decide, hcs⟩
  · obtain ⟨b, bs, rfl⟩ := List.exists_cons_of_ne_nil hne
    exact ⟨b, bs, rfl, List.forall_mem_cons.mp hcs⟩

theorem quotedReads_laid (hindent : 0 < indent) (h : Laid true indent ps out) (hps : Clear ps) :
    QuotedReads false out (ps.flatMap Piece.readBack) := by
  induction h with
  | nil => exact quotedReads_nil
  | run cs h ih => exact (ih hps.of_cons).run hps.run.2
  | quote h ih => exact (ih hps.of_cons).doubled
  | spaces n h ih =>
      exact (ih hps.of_cons).spaces (hps.of_cons.isGap_nextQuoted h (hps.isWhite_head? rfl))
  | fold h ih =>
      exact (ih hps.of_cons).fold (hps.of_cons.isGap_nextQuoted h (hps.isWhite_head? rfl)) hindent
  | breaks cs h ih =>
      have hnext := hps.of_cons.isGap_nextQuoted h (hps.isWhite_head? rfl)
      obtain ⟨b, bs, hwritten, hb, hbs⟩ := writtenBreaks_sound (hps.sound _ List.mem_cons_self)
      rw [List.flatMap_cons, Piece.readBack, hwritten]
      exact (ih hps.of_cons).breaks hnext hindent hb hbs

/-! ## Escapes -/

theorem simpleEscape?_of_escapeLetter? {l : Char} (h : Sheet.escapeLetter? ch = some l) :
    simpleEscape? l = some ch := by
  unfold Sheet.escapeLetter? at h
  split at h <;> cases h <;> rfl

theorem isHexDigit_digitChar : ∀ d < 16, Text.isHexDigit (Text.digitChar d).toUpper = true := by
  decide

theorem hexValue_toUpper_digitChar :
    ∀ d < 16, Text.hexValue (Text.digitChar d).toUpper = Text.hexValue (Text.digitChar d) := by
  decide

section CapitalHex

variable {width n : ℕ}

theorem isHexDigit_of_mem_capitalHex {x : Char} (h : x ∈ Sheet.capitalHex width n) :
    Text.isHexDigit x = true := by
  obtain ⟨y, hy, rfl⟩ := List.mem_map.mp h
  obtain ⟨d, hd, rfl⟩ := Text.mem_padded (by decide) hy
  exact isHexDigit_digitChar d hd

theorem length_capitalHex (hwidth : 0 < width) (hn : n < 16 ^ width) :
    (Sheet.capitalHex width n).length = width := by
  rw [Sheet.capitalHex, List.length_map, Text.length_padded hwidth hn]

theorem ofDigits_capitalHex : Text.ofDigits 16 (Sheet.capitalHex width n) = n := by
  have hupper : (Text.padded 16 width n).map (Text.hexValue ∘ Char.toUpper) =
      (Text.padded 16 width n).map Text.hexValue := by
    refine List.map_congr_left fun x hx => ?_
    obtain ⟨d, hd, rfl⟩ := Text.mem_padded (by decide) hx
    exact hexValue_toUpper_digitChar d hd
  have hfold (ds : List Char) :
      Text.ofDigits 16 ds = (ds.map Text.hexValue).foldl (fun n d => n * 16 + d) 0 := by
    rw [Text.ofDigits, List.foldl_map]
  rw [hfold, Sheet.capitalHex, List.map_map, hupper, ← hfold]
  exact Text.ofDigits_padded (by decide) (by decide)

end CapitalHex

theorem charOfCode_toNat (ch : Char) : charOfCode ch.toNat = .ok ch := by
  have hvalid : ch.toNat < 0xd800 ∨ 0xdfff < ch.toNat ∧ ch.toNat < 0x110000 := ch.valid
  rw [charOfCode, if_neg (by omega), if_neg (by omega), if_neg (by omega), Char.ofNat_toNat]

/-- An escape is read as the character that it stands for. -/
theorem quotedEscape_of_escape (ch : Char) :
    ∃ e, Sheet.escape ch = '\\' :: e ∧
      ∀ (c : Cursor) (rest : List Char), c.rest = e ++ rest →
        quotedEscape c = .ok ([ch], advance e.length c) := by
  -- an escape by code, for each of the three lengths that there are
  have hhex {letter : Char} {width : ℕ} (hletter : escapeLength? letter = some width)
      (hsimple : simpleEscape? letter = none) (hwidth : 0 < width) (hn : ch.toNat < 16 ^ width)
      (c : Cursor) (rest : List Char)
      (h : c.rest = (letter :: Sheet.capitalHex width ch.toNat) ++ rest) :
      quotedEscape c =
        .ok ([ch], advance (letter :: Sheet.capitalHex width ch.toNat).length c) := by
    have hlength := length_capitalHex hwidth hn
    have hdigits : (c.next.rest.take width) = Sheet.capitalHex width ch.toNat := by
      simp only [rest_next, h, List.cons_append, List.tail_cons]
      exact List.take_left' hlength
    have hall : (Sheet.capitalHex width ch.toNat).all Text.isHexDigit = true :=
      List.all_eq_true.mpr fun x hx => isHexDigit_of_mem_capitalHex hx
    rw [quotedEscape, peek_of_rest h, hsimple, hletter]
    simp only [hdigits, hlength, hall, decide_true, Bool.and_true, if_true, ofDigits_capitalHex,
      charOfCode_toNat]
    rw [List.length_cons, hlength, advance]
    rfl
  unfold Sheet.escape
  split
  · next l hl =>
      refine ⟨[l], rfl, fun c rest h => ?_⟩
      rw [quotedEscape, peek_of_rest h, simpleEscape?_of_escapeLetter? hl]
      rfl
  · have hvalid : ch.toNat < 0xd800 ∨ 0xdfff < ch.toNat ∧ ch.toNat < 0x110000 := ch.valid
    split
    · exact ⟨_, rfl, hhex rfl rfl (by decide) (by omega)⟩
    · split
      · exact ⟨_, rfl, hhex rfl rfl (by decide) (by omega)⟩
      · exact ⟨_, rfl, hhex rfl rfl (by decide) (by omega)⟩

/-! ## Texts between double quotes -/

theorem isGap_of_isShown (h : Sheet.isShown ch = true) (hspace : ch ≠ ' ') : isGap ch = false := by
  have hne (q : Char) (hq : Sheet.isShown q = false) : ch ≠ q := by
    rintro rfl
    rw [h] at hq
    cases hq
  have hfeed : ch ≠ '\n' := hne _ (by decide)
  have hreturn : ch ≠ '\r' := hne _ (by decide)
  have hnext : ch ≠ '\u0085' := hne _ (by decide)
  have hline : ch ≠ '\u2028' := hne _ (by decide)
  have hparagraph : ch ≠ '\u2029' := hne _ (by decide)
  rw [isGap_eq_false_iff]
  exact ⟨hne _ (by decide), hspace, by simp [isBreak, *], hne _ (by decide)⟩

/-- What is behind a backslash. -/
theorem QuotedReads.slash (h : QuotedReads true out text) (e piece : List Char)
    (hescape : ∀ (c : Cursor) (rest : List Char), c.rest = e ++ nextQuoted true out :: rest →
      quotedEscape c = .ok (piece, advance e.length c)) :
    QuotedReads true ('\\' :: e ++ out) (piece ++ text) := by
  refine h.step ('\\' :: e) piece nofun fun c rest fuel done hrest => ?_
  have hread := hescape c.next rest (by simp [hrest])
  rw [quotedRuns]
  simp only [peek_of_rest hrest, hread]
  rfl

theorem quotedEscape_lineAt (h : c.rest = lineAt indent ++ ch :: rest) (hindent : 0 < indent)
    (hch : isGap ch = false) : quotedEscape c = .ok ([], advance (lineAt indent).length c) := by
  have hnext : c.next.rest = [] ++ (List.replicate indent ' ' ++ ch :: rest) := by simp [h, lineAt]
  have hfuel : ([] : List Char).length < c.next.fuel := Nat.succ_pos _
  have hbreaks := quotedBreaks_of_breaks hindent hnext (List.forall_mem_nil _) hch hfuel
  have hbreak := lineBreak_newline (c := c) h
  rw [quotedEscape, peek_of_rest h]
  simp only [hbreak, hbreaks]
  simp [lineAt, advance, simpleEscape?, escapeLength?, isBreak]

/-- A text that does not start with a space is not written with white space either. -/
theorem isGap_nextQuoted_of_escaped {cs : List Char} (h : Escaped indent cs out)
    (hcs : cs.head? ≠ some ' ') : isGap (nextQuoted true out) = false := by
  cases h with
  | nil => decide
  | shown hc h => exact isGap_of_isShown hc fun hspace => hcs (congrArg some hspace)
  | @escape c cs out hc h =>
      obtain ⟨e, he, -⟩ := quotedEscape_of_escape c
      rw [he]
      rfl
  | fold hcs h => rfl
  | foldSpace h => rfl

/-- Spaces before the text are read with it. -/
theorem quotedReads_spaces_escaped {cs : List Char} (hindent : 0 < indent)
    (h : Escaped indent cs out) (n : ℕ) :
    QuotedReads true (List.replicate n ' ' ++ out) (List.replicate n ' ' ++ cs) := by
  induction h generalizing n with
  | nil => exact quotedReads_nil.spaces (by decide)
  | @shown c cs out hc h ih =>
      by_cases hspace : c = ' '
      · subst hspace
        -- the spaces are collected until something else comes
        have hread := ih (n + 1)
        rwa [List.replicate_succ', List.append_assoc, List.append_assoc] at hread
      · have hgap := isGap_of_isShown hc hspace
        refine QuotedReads.spaces ?_ hgap
        by_cases hquote : c = '\''
        · exact (ih 0).plain hquote
        · refine (ih 0).ordinary (isOrdinary_iff.mpr ⟨hquote, ?_, ?_, hgap⟩)
          · rintro rfl
            exact absurd hc (by decide)
          · rintro rfl
            exact absurd hc (by decide)
  | @escape c cs out hc h ih =>
      obtain ⟨e, he, hread⟩ := quotedEscape_of_escape c
      rw [he]
      exact QuotedReads.spaces ((ih 0).slash e [c] fun c rest hrest => hread c _ hrest) rfl
  | @fold cs out hcs h ih =>
      have hnext := isGap_nextQuoted_of_escaped h hcs
      refine QuotedReads.spaces ((ih 0).slash (lineAt indent) [] ?_) rfl
      exact fun c rest hrest => quotedEscape_lineAt hrest hindent hnext
  | @foldSpace cs out h ih =>
      have hspace : QuotedReads true ('\\' :: ' ' :: out) (' ' :: cs) := by
        refine (ih 0).slash [' '] [' '] fun c rest hrest => ?_
        rw [quotedEscape, peek_of_rest hrest]
        rfl
      refine QuotedReads.spaces (hspace.slash (lineAt indent) [] ?_) rfl
      exact fun c rest hrest => quotedEscape_lineAt hrest hindent (by rfl)

theorem quotedReads_escaped {cs : List Char} (hindent : 0 < indent) (h : Escaped indent cs out) :
    QuotedReads true out cs :=
  quotedReads_spaces_escaped hindent h 0

/-! ## Scalars -/

/-- A quoted scalar is read up to its closing mark. -/
theorem QuotedReads.quotedScalar_eq (h : QuotedReads double out text)
    (hrest : c.rest = mark double :: (out ++ mark double :: tail))
    (htail : tail.head? ≠ some '\'') :
    quotedScalar double c = .ok ⟨text, advance (out.length + 2) c, false⟩ := by
  have hnext : c.next.rest = out ++ mark double :: tail := by simp [hrest]
  have hread := h c.next tail (c.fuel + 1) [] hnext htail (by simp [fuel, hrest]; omega)
  rw [quotedScalar, hread]
  rfl

end LoopPainter.Yaml
