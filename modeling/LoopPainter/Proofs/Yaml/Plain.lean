import LoopPainter.Proofs.Yaml.Quoted

/-!
# Reading plain scalars

A text without quotes is written word by word, and its lines are broken at single spaces between
words (`Worded`).  It ends with its line, if the next line is not indented like the text itself
(`plainScalar_of_worded`), or at the colon behind a key (`plainScalar_of_label`).
-/

namespace LoopPainter.Yaml

open Cursor

variable {key text out w rest tail : List Char} {ch : Char} {c : Cursor} {indent column m : ℕ}
  {ps : List Piece}

/-! ## Words -/

/-- Characters without white space. -/
structure Word (w : List Char) : Prop where
  nonempty : w ≠ []
  chars : ∀ ch ∈ w, isGap ch = false ∧ ch ≠ '\ufeff'

/-- A text in words, as it can be written, with the column of its further lines. -/
inductive Worded (column : ℕ) : List Char → List Char → Prop
  | word {w : List Char} (hw : Word w) : Worded column w w
  | spaces {w text out : List Char} (hw : Word w) (n : ℕ) (h : Worded column text out) :
      Worded column (w ++ (List.replicate (n + 1) ' ' ++ text))
        (w ++ (List.replicate (n + 1) ' ' ++ out))
  | fold {w text out : List Char} (hw : Word w) (h : Worded column text out) :
      Worded column (w ++ (List.replicate (0 + 1) ' ' ++ text)) (w ++ (lineAt column ++ out))

theorem Word.append {a b : List Char} (ha : Word a)
    (hb : ∀ ch ∈ b, isGap ch = false ∧ ch ≠ '\ufeff') : Word (a ++ b) where
  nonempty := by simp [ha.nonempty]
  chars := fun ch hch => (List.mem_append.mp hch).elim (ha.chars ch) (hb ch)

theorem Word.isInline (hw : Word w) : ∀ ch ∈ w, isInline ch = true := by
  intro ch hch
  obtain ⟨hgap, hmark⟩ := hw.chars ch hch
  obtain ⟨-, -, hbreak, -⟩ := isGap_eq_false_iff.mp hgap
  simp [Yaml.isInline, hbreak, hmark]

theorem Word.exists_cons (hw : Word w) : ∃ ch rest, w = ch :: rest ∧ isGap ch = false := by
  cases w with
  | nil => exact absurd rfl hw.nonempty
  | cons ch rest => exact ⟨ch, rest, rfl, (hw.chars ch (by simp)).1⟩

/-- A text in words and its written form start with the same word. -/
theorem Worded.exists_word (h : Worded column text out) :
    ∃ w a b, Word w ∧ text = w ++ a ∧ out = w ++ b ∧ isGap (a.headD '\x00') = true ∧
      isGap (b.headD '\x00') = true := by
  cases h with
  | word hw => exact ⟨_, [], [], hw, (List.append_nil _).symm, (List.append_nil _).symm, rfl, rfl⟩
  | spaces hw n h => exact ⟨_, _, _, hw, rfl, rfl, rfl, rfl⟩
  | fold hw h => exact ⟨_, _, _, hw, rfl, rfl, rfl, rfl⟩

theorem Worded.exists_cons (h : Worded column text out) :
    ∃ ch text' out', text = ch :: text' ∧ out = ch :: out' ∧ isGap ch = false := by
  obtain ⟨w, a, b, hw, rfl, rfl, -, -⟩ := h.exists_word
  obtain ⟨ch, w', rfl, hch⟩ := hw.exists_cons
  exact ⟨ch, w' ++ a, w' ++ b, rfl, rfl, hch⟩

theorem word_of_sound {cs : List Char} (hsound : (Piece.run cs).Sound)
    (hspecial : ∀ ch ∈ cs, isSpecial ch = false) : Word cs where
  nonempty := hsound.1
  chars := by
    intro ch hch
    obtain ⟨-, hspace, hbreak⟩ := hsound.2 ch hch
    refine ⟨isGap_of_isSpecial (hspecial ch hch) hspace hbreak, ?_⟩
    rintro rfl
    exact absurd (hspecial _ hch) (by decide)

theorem word_quote : Word ['\''] :=
  ⟨nofun, by simp; decide⟩

/-- Pieces of a text in words, with no spaces at their end. -/
structure Wordy (ps : List Piece) : Prop extends Clear ps where
  breaks : ∀ cs, .breaks cs ∉ ps
  last : ∀ p ∈ ps.getLast?, p.isWhite = false

theorem ne_space_of_isSpaceOrBreak (h : isSpaceOrBreak ch = false) : ch ≠ ' ' := by
  rintro rfl
  cases h

theorem Unquoted.wordy (h : Unquoted text) : Wordy (Piece.ofText text) where
  toClear := h.toUnescaped.clear
  breaks := Piece.breaks_not_mem_ofText h.breaks
  last := Piece.isWhite_getLast?_ofText h.breaks fun c hc => ne_space_of_isSpaceOrBreak (h.last c hc)

theorem Unquoted.isWhite_head? (h : Unquoted text) :
    ∀ p ∈ (Piece.ofText text).head?, p.isWhite = false :=
  Piece.isWhite_head?_ofText h.breaks fun c hc => ne_space_of_isSpaceOrBreak (h.head c hc)

theorem Wordy.of_cons {p : Piece} (h : Wordy (p :: ps)) : Wordy ps where
  toClear := h.toClear.of_cons
  breaks := fun cs hcs => h.breaks cs (List.mem_cons_of_mem p hcs)
  last := fun q hq => h.last q (by rw [Option.mem_def] at hq; rw [List.getLast?_cons, hq]; rfl)

theorem Wordy.word {cs : List Char} (h : Wordy (.run cs :: ps)) : Word cs :=
  word_of_sound (h.sound _ List.mem_cons_self) (h.special _ List.mem_cons_self)

/-- Behind spaces there is a word. -/
theorem Wordy.behind_spaces {n : ℕ} (h : Wordy (.spaces n :: ps)) :
    0 < n ∧ ps ≠ [] ∧ ∀ p ∈ ps.head?, p.isWhite = false := by
  refine ⟨h.sound _ List.mem_cons_self, ?_, h.isWhite_head? rfl⟩
  rintro rfl
  cases h.last _ rfl

theorem Worded.append_word {v : List Char} (hv : Word v)
    (h : ∀ w, Word w → Worded column (w ++ text) (w ++ out)) (hw : Word w) :
    Worded column (w ++ (v ++ text)) (w ++ (v ++ out)) := by
  have hword := h (w ++ v) (hw.append hv.chars)
  rwa [List.append_assoc, List.append_assoc] at hword

/-- Pieces without breaks are words and the spaces between them.  They are put behind a word, or
they start with one themselves. -/
theorem worded_of_laid (h : Laid false column ps out) (hps : Wordy ps) :
    (∀ w, Word w → Worded column (w ++ ps.flatMap Piece.chars) (w ++ out)) ∧
    (ps ≠ [] → (∀ p ∈ ps.head?, p.isWhite = false) →
      Worded column (ps.flatMap Piece.chars) out) := by
  induction h with
  | nil => exact ⟨fun w hw => by simpa using Worded.word hw, fun hne => absurd rfl hne⟩
  | run cs h ih =>
      obtain ⟨hbehind, -⟩ := ih hps.of_cons
      exact ⟨fun w => Worded.append_word hps.word hbehind, fun _ _ => hbehind cs hps.word⟩
  | quote h ih =>
      obtain ⟨hbehind, -⟩ := ih hps.of_cons
      exact ⟨fun w => Worded.append_word word_quote hbehind, fun _ _ => hbehind _ word_quote⟩
  | spaces n h ih =>
      obtain ⟨hpos, hne, hhead⟩ := hps.behind_spaces
      obtain ⟨n, rfl⟩ : ∃ k, n = k + 1 := ⟨n - 1, (Nat.sub_add_cancel hpos).symm⟩
      exact ⟨fun w hw => .spaces hw n ((ih hps.of_cons).2 hne hhead), fun _ h => nomatch h _ rfl⟩
  | fold h ih =>
      obtain ⟨-, hne, hhead⟩ := hps.behind_spaces
      exact ⟨fun w hw => .fold hw ((ih hps.of_cons).2 hne hhead), fun _ h => nomatch h _ rfl⟩
  | breaks cs h ih => exact absurd List.mem_cons_self (hps.breaks cs)

/-- A word of letters and underscores that is written plain and is short enough for a key. -/
structure Label (key : List Char) : Prop where
  style : styleOf key = .plain
  chars : ∀ ch ∈ key, ('a' ≤ ch ∧ ch ≤ 'z') ∨ ch = '_'
  nonempty : key ≠ []
  short : key.length ≤ 100

theorem label_of_all (hstyle : styleOf key = .plain)
    (hchars : key.all (fun ch => ('a' ≤ ch && ch ≤ 'z') || ch == '_') = true) (hne : key ≠ [])
    (hshort : key.length ≤ 100) : Label key where
  style := hstyle
  chars := by simpa using hchars
  nonempty := hne
  short := hshort

theorem Label.ne {q : Char} (h : Label key) (hch : ch ∈ key)
    (hq : ¬ (('a' ≤ q ∧ q ≤ 'z') ∨ q = '_')) : ch ≠ q := by
  rintro rfl
  exact hq (h.chars ch hch)

theorem Label.word (h : Label key) : Word key where
  nonempty := h.nonempty
  chars := fun ch hch => by
    refine ⟨isGap_eq_false_iff.mpr ⟨h.ne hch (by decide), h.ne hch (by decide), ?_,
      h.ne hch (by decide)⟩, h.ne hch (by decide)⟩
    simp only [isBreak, Bool.or_eq_false_iff, beq_eq_false_iff_ne]
    exact ⟨⟨⟨⟨h.ne hch (by decide), h.ne hch (by decide)⟩, h.ne hch (by decide)⟩,
      h.ne hch (by decide)⟩, h.ne hch (by decide)⟩

/-! ## Indicators -/

/-- No colon ends a word, and no number sign starts one. -/
structure Unmarked (text : List Char) : Prop where
  colon : ∀ front back, text = front ++ ':' :: back → isGap (back.headD '\x00') = false
  hash : ∀ front ch back, text = front ++ ch :: '#' :: back → isGap ch = false
  head : text.head? ≠ some '#'

theorem hasInnerIndicator_of_append {front : List Char}
    (h : hasInnerIndicator (front ++ rest) = false) : hasInnerIndicator rest = false := by
  induction front with
  | nil => exact h
  | cons ch front ih =>
      refine ih ?_
      cases hfront : front ++ rest with
      | nil => rfl
      | cons b back =>
          rw [List.cons_append, hfront, hasInnerIndicator, Bool.or_eq_false_iff] at h
          exact h.2

theorem unmarked_of_hasIndicator (h : hasIndicator text = false) : Unmarked text := by
  simp only [hasIndicator, Bool.or_eq_false_iff] at h
  obtain ⟨⟨-, hleading⟩, hinner⟩ := h
  have hat (front : List Char) (a b : Char) (back : List Char)
      (heq : text = front ++ a :: b :: back) :
      isInnerIndicator a b (back.headD '\x00') = false := by
    rw [heq] at hinner
    have := hasInnerIndicator_of_append hinner
    rw [hasInnerIndicator, Bool.or_eq_false_iff] at this
    exact this.1
  refine ⟨fun front back heq => ?_, fun front ch back heq => ?_, ?_⟩
  · rcases List.eq_nil_or_concat front with rfl | ⟨front, a, rfl⟩
    · subst heq
      simpa [isLeadingIndicator] using hleading
    · have := hat front a ':' back (by simpa using heq)
      simpa [isInnerIndicator] using this
  · have := hat front ch '#' back heq
    simpa [isInnerIndicator] using this
  · intro hhead
    obtain ⟨back, rfl⟩ := List.head?_eq_some_iff.mp hhead
    simp [isLeadingIndicator] at hleading

theorem isLeadingIndicator_of_hasIndicator (h : hasIndicator (ch :: rest) = false) :
    isLeadingIndicator ch (rest.headD '\x00') = false := by
  simp only [hasIndicator, Bool.or_eq_false_iff] at h
  exact h.1.2

theorem Label.isLeadingIndicator_eq_false (h : Label key) (hch : ch ∈ key) (after : Char) :
    isLeadingIndicator ch after = false := by
  have hne (q : Char) (hq : ¬ (('a' ≤ q ∧ q ≤ 'z') ∨ q = '_')) : (ch = q) = False :=
    eq_false (h.ne hch hq)
  simp (disch := decide) [isLeadingIndicator, hne]

theorem isLeadingIndicator_congr {a b : Char} (h : isGap a = isGap b) :
    isLeadingIndicator ch a = isLeadingIndicator ch b := by
  rw [isLeadingIndicator, isLeadingIndicator, h]

/-- No indicator starts the written form of a text that holds none. -/
theorem Worded.exists_start (h : Worded column text out) (hindicators : hasIndicator text = false)
    (tail : List Char) (htail : isGap (tail.headD '\x00') = true) :
    ∃ ch out', out = ch :: out' ∧ isGap ch = false ∧
      isLeadingIndicator ch ((out' ++ tail).headD '\x00') = false := by
  obtain ⟨w, a, b, hw, rfl, rfl, ha, hb⟩ := h.exists_word
  obtain ⟨ch, w', rfl, hch⟩ := hw.exists_cons
  refine ⟨ch, w' ++ b, rfl, hch, ?_⟩
  rw [← isLeadingIndicator_of_hasIndicator hindicators]
  refine isLeadingIndicator_congr ?_
  cases w' with
  | cons _ _ => rfl
  | nil =>
      cases b with
      | cons _ _ => exact hb.trans ha.symm
      | nil => exact htail.trans ha.symm

theorem Unmarked.behind_spaces {n : ℕ} (h : Unmarked (w ++ (List.replicate (n + 1) ' ' ++ text))) :
    Unmarked text where
  colon := fun front back heq =>
    h.colon (w ++ (List.replicate (n + 1) ' ' ++ front)) back (by simp [heq])
  hash := fun front ch back heq =>
    h.hash (w ++ (List.replicate (n + 1) ' ' ++ front)) ch back (by simp [heq])
  head := by
    intro hhead
    obtain ⟨back, rfl⟩ := List.head?_eq_some_iff.mp hhead
    have := h.hash (w ++ List.replicate n ' ') ' ' back (by simp [List.replicate_succ'])
    cases this

/-! ## Runs and gaps -/

theorem plainRun_append (hw : ∀ ch ∈ w, isGap ch = false)
    (hcolon : ∀ front back, w = front ++ ':' :: back → isGap ((back ++ rest).headD '\x00') = false)
    (hrest : plainRun false rest = 0) : plainRun false (w ++ rest) = w.length := by
  induction w with
  | nil => exact hrest
  | cons ch w ih =>
      rw [List.forall_mem_cons] at hw
      have hgo : (isGap ch || (ch == ':' && (isGap ((w ++ rest).headD '\x00') ||
          (false && isAfterFlowColon ((w ++ rest).headD '\x00')))) || (false && isFlowEnd ch)) =
          false := by
        by_cases hch : ch = ':'
        · subst hch
          have hafter := hcolon [] w rfl
          have hself : isGap ':' = false := by decide
          simp only [hself, hafter, Bool.and_false, Bool.false_and, Bool.or_self]
        · simp [hw.1, hch]
      rw [List.cons_append, plainRun, hgo, if_neg Bool.false_ne_true, List.length_cons,
        ih hw.2 fun front back heq => hcolon (ch :: front) back (by rw [heq]; rfl)]

theorem plainRun_eq_zero (h : isGap (rest.headD '\x00') = true) : plainRun false rest = 0 := by
  cases rest with
  | nil => rfl
  | cons ch rest =>
      rw [plainRun]
      simp only [List.headD_cons] at h
      simp [h]

/-- The text that follows a scalar on a new line, behind its indentation. -/
structure Resumes (tail : List Char) : Prop where
  head : ∀ ch ∈ tail.head?, isGap ch = false ∧ ch ≠ '#'
  mark : ∀ c : Cursor, c.rest = tail → c.atDocumentMark = false

theorem Resumes.headD (h : Resumes tail) : tail.headD '\x00' ≠ ' ' ∧
    isBreak (tail.headD '\x00') = false ∧ tail.headD '\x00' ≠ '#' := by
  cases tail with
  | nil => decide
  | cons ch tail =>
      obtain ⟨hgap, hhash⟩ := h.head ch rfl
      obtain ⟨-, hspace, hbreak, -⟩ := isGap_eq_false_iff.mp hgap
      exact ⟨hspace, hbreak, hhash⟩

theorem Label.resumes (h : Label key) (rest : List Char) : Resumes (key ++ rest) := by
  obtain ⟨ch, key', heq, hch⟩ := h.word.exists_cons
  have hmem : ch ∈ key := by simp [heq]
  refine ⟨?_, fun c hc => ?_⟩
  · rw [heq]
    rintro _ ⟨⟩
    exact ⟨hch, h.ne hmem (by decide)⟩
  · rw [heq] at hc
    exact atDocumentMark_eq_false hc (h.ne hmem (by decide)) (h.ne hmem (by decide))

theorem resumes_entry (rest : List Char) : Resumes ('-' :: ' ' :: rest) := by
  refine ⟨by rintro _ ⟨⟩; decide, fun c hc => ?_⟩
  simp [atDocumentMark, startsWith, hc]

theorem resumes_nil : Resumes [] := by
  refine ⟨nofun, fun c hc => ?_⟩
  simp [atDocumentMark, startsWith, hc]

theorem peek_eq_headD (c : Cursor) : c.peek = c.rest.headD '\x00' := by
  cases h : c.rest with
  | nil => exact peek_of_rest_nil h 0
  | cons ch rest => exact peek_of_rest h

theorem plainGap_spaces {n : ℕ} (h : c.rest = List.replicate n ' ' ++ ch :: rest)
    (hch : isGap ch = false) : plainGap c = ⟨List.replicate n ' ', advance n c, false⟩ := by
  obtain ⟨-, hspace, hbreak, -⟩ := isGap_eq_false_iff.mp hch
  have hspan : c.span (· == ' ') = (List.replicate n ' ', advance n c) := by
    have hspan := span_append h (p := (· == ' '))
      (fun ch hch => by simp [List.eq_of_mem_replicate hch]) (by rintro _ ⟨⟩; simpa using hspace)
    rwa [List.length_replicate] at hspan
  have hafter : (advance n c).rest = ch :: rest := by simp [h]
  simp [plainGap, hspan, peek_of_rest hafter, hbreak]

theorem plainBreaks_spaces {fuel : ℕ} (h : c.rest = List.replicate m ' ' ++ tail)
    (htail : tail.headD '\x00' ≠ ' ' ∧ isBreak (tail.headD '\x00') = false) (hfuel : m < fuel) :
    plainBreaks fuel c = (false, [], advance m c) := by
  induction m generalizing c fuel with
  | zero =>
      obtain ⟨fuel, rfl⟩ : ∃ k, fuel = k + 1 := ⟨fuel - 1, by omega⟩
      rw [List.replicate_zero, List.nil_append] at h
      rw [plainBreaks, peek_eq_headD, h, if_neg (by simpa using htail.1),
        if_neg (by simpa using htail.2)]
      rfl
  | succ m ih =>
      obtain ⟨fuel, rfl⟩ : ∃ k, fuel = k + 1 := ⟨fuel - 1, by omega⟩
      rw [List.replicate_succ, List.cons_append] at h
      rw [plainBreaks, peek_of_rest h, if_pos (by decide), ih (by simp [h]) (by omega), advance]

/-- A new line is read as a space. -/
theorem plainGap_lineAt (h : c.rest = lineAt m ++ tail)
    (htail : tail.headD '\x00' ≠ ' ' ∧ isBreak (tail.headD '\x00') = false)
    (hmark : m = 0 → c.next.atDocumentMark = false) :
    plainGap c = ⟨[' '], advance (m + 1) c, true⟩ := by
  have hspan : c.span (· == ' ') = ([], c) := by
    refine span_none ?_
    rw [h]
    rintro _ ⟨⟩
    rfl
  have hnext : c.next.rest = List.replicate m ' ' ++ tail := by simp [h, lineAt]
  -- with indentation the new line cannot start with a document mark
  have hmark' : c.next.atDocumentMark = false := by
    cases m with
    | zero => exact hmark rfl
    | succ m =>
        exact atDocumentMark_eq_false (show c.next.rest = ' ' :: _ from hnext) (by decide)
          (by decide)
  have hfuel : m < c.next.fuel := by
    simp only [fuel, hnext, List.length_append, List.length_replicate]
    omega
  have hbreaks := plainBreaks_spaces hnext htail hfuel
  rw [plainGap, hspan]
  dsimp only
  rw [peek_of_rest h, if_pos (by decide), lineBreak_newline h]
  dsimp only
  rw [hmark', if_neg Bool.false_ne_true, hbreaks]
  rfl

/-! ## Scalars -/

theorem plainRuns_run {fuel : ℕ} {done gap : List Char} {broken : Bool} (h : c.rest = w ++ rest)
    (hne : w ≠ []) (hhash : w.head? ≠ some '#') (hrun : plainRun false (w ++ rest) = w.length) :
    plainRuns false indent (fuel + 1) done gap broken c =
      (let g := plainGap (advance w.length c)
      if g.text.isEmpty || g.after.peek == '#' || (!false && g.after.column < indent) then
        ⟨done ++ gap ++ w, g.after, g.broken⟩
      else plainRuns false indent fuel (done ++ gap ++ w) g.text g.broken g.after) := by
  have hn : (if c.peek == '#' then 0 else plainRun false c.rest) = w.length := by
    rw [if_neg, h, hrun]
    cases w with
    | nil => exact absurd rfl hne
    | cons ch w =>
        rw [peek_of_rest h]
        simpa using hhash
  rw [plainRuns, hn]
  dsimp only
  rw [if_neg (by simpa using hne), h, List.take_left]

theorem plainRun_word (hw : Word w) (hcolon : ∀ front back, w = front ++ ':' :: back → back ≠ [])
    (hrest : isGap (rest.headD '\x00') = true) : plainRun false (w ++ rest) = w.length := by
  refine plainRun_append (fun ch hch => (hw.chars ch hch).1) (fun front back heq => ?_)
    (plainRun_eq_zero hrest)
  cases back with
  | nil => exact absurd rfl (hcolon front [] heq)
  | cons ch back => exact (hw.chars ch (by simp [heq])).1

/-- The first word of a text is a run. -/
theorem Unmarked.plainRun (behind behind' : List Char) (h : Unmarked (w ++ behind)) (hw : Word w)
    (hbehind : isGap (behind.headD '\x00') = true)
    (hbehind' : isGap (behind'.headD '\x00') = true) :
    w.head? ≠ some '#' ∧ plainRun false (w ++ behind') = w.length := by
  refine ⟨fun hhash => h.head ?_, plainRun_word hw ?_ hbehind'⟩
  · rw [List.head?_append, hhash]
    rfl
  · rintro front back rfl rfl
    have hgap := h.colon front behind (by simp)
    rw [hbehind] at hgap
    cases hgap

theorem Worded.peek_ne (h : Worded column text out) (hmarks : Unmarked text)
    (hrest : c.rest = out ++ rest) : c.peek ≠ '#' := by
  obtain ⟨ch, text', out', rfl, rfl, -⟩ := h.exists_cons
  rw [peek_of_rest hrest]
  rintro rfl
  exact hmarks.head rfl

/-- The spaces before a text in words. -/
theorem Worded.plainGap_spaces {n : ℕ} (h : Worded column text out)
    (hrest : c.rest = List.replicate n ' ' ++ (out ++ rest)) :
    plainGap c = ⟨List.replicate n ' ', advance n c, false⟩ ∧ (advance n c).rest = out ++ rest ∧
      (advance n c).column = c.column + n := by
  obtain ⟨ch, text', out', -, rfl, hch⟩ := h.exists_cons
  have hspaces := advance_inline hrest fun ch hch => isInline_of_mem_replicate hch
  rw [List.length_replicate] at hspaces
  exact ⟨Yaml.plainGap_spaces hrest hch, by rw [hspaces], by rw [hspaces]⟩

/-- The new line before a text in words. -/
theorem Worded.plainGap_line (h : Worded column text out)
    (hrest : c.rest = lineAt column ++ (out ++ rest)) (hcolumn : 0 < column) :
    plainGap c = ⟨[' '], advance (column + 1) c, true⟩ ∧
      (advance (column + 1) c).rest = out ++ rest ∧
      (advance (column + 1) c).column = column := by
  obtain ⟨ch, text', out', -, rfl, hch⟩ := h.exists_cons
  obtain ⟨-, hspace, hbreak, -⟩ := isGap_eq_false_iff.mp hch
  have hline := advance_newline hrest
  exact ⟨plainGap_lineAt hrest ⟨hspace, hbreak⟩ (by omega), by rw [hline], by rw [hline]⟩

/-- Behind a word and what is read as spaces a text in words goes on, if it is indented enough. -/
theorem Worded.plainRuns_behind {fuel n : ℕ} {done gap : List Char} {broken broken' : Bool} {c' : Cursor}
    (h : Worded column text out) (hw : Word w)
    (hmarks : Unmarked (w ++ (List.replicate (n + 1) ' ' ++ text))) (hrest : c.rest = w ++ rest)
    (hbehind : isGap (rest.headD '\x00') = true)
    (hgap : plainGap (advance w.length c) = ⟨List.replicate (n + 1) ' ', c', broken'⟩)
    (hafter : c'.rest = out ++ tail) (hcolumn : indent ≤ c'.column) :
    plainRuns false indent (fuel + 1) done gap broken c =
      plainRuns false indent fuel (done ++ gap ++ w) (List.replicate (n + 1) ' ') broken' c' := by
  obtain ⟨hhash, hrun⟩ := hmarks.plainRun _ rest hw rfl hbehind
  have hstop : ((List.replicate (n + 1) ' ').isEmpty || c'.peek == '#' ||
      (!false && decide (c'.column < indent))) = false := by
    simp [h.peek_ne hmarks.behind_spaces hafter, hcolumn]
  rw [plainRuns_run hrest hw.nonempty hhash hrun, hgap]
  dsimp only
  rw [hstop, if_neg Bool.false_ne_true]

/-- A text in words is read up to the next line, which is indented less. -/
theorem plainRuns_of_worded {fuel : ℕ} {done gap : List Char} {broken : Bool}
    (h : Worded column text out) (hmarks : Unmarked text) (htail : Resumes tail)
    (hrest : c.rest = out ++ (lineAt m ++ tail)) (hm : m < indent) (hcolumn : indent ≤ column)
    (hstart : indent ≤ c.column) (hfuel : out.length < fuel) :
    plainRuns false indent fuel done gap broken c =
      ⟨done ++ gap ++ text, advance (out.length + (m + 1)) c, true⟩ := by
  obtain ⟨fuel, rfl⟩ : ∃ k, fuel = k + 1 := ⟨fuel - 1, by omega⟩
  induction h generalizing c fuel done gap broken with
  | @word w hw =>
      obtain ⟨hhash, hrun⟩ :=
        Unmarked.plainRun [] (lineAt m ++ tail) (by simpa using hmarks) hw rfl rfl
      -- the last word: the next line is indented less and ends the scalar
      have hafter := rest_advance_append hrest
      obtain ⟨hspace, hbreak, -⟩ := htail.headD
      have hgap := plainGap_lineAt hafter ⟨hspace, hbreak⟩ fun hzero =>
        htail.mark _ (by rw [rest_next, hafter, hzero]; rfl)
      rw [plainRuns_run hrest hw.nonempty hhash hrun, hgap, advance_newline hafter]
      simp only [hm, decide_true, Bool.not_false, Bool.and_self, Bool.or_true, if_true]
      rw [← advance_newline hafter, ← advance_add]
  | @spaces w text out hw n h ih =>
      rw [List.append_assoc, List.append_assoc] at hrest
      obtain ⟨hgap, hnext, hcol⟩ := h.plainGap_spaces (rest_advance_append hrest)
      have hin : indent ≤ (advance (n + 1) (advance w.length c)).column := by
        rw [hcol, advance_inline hrest hw.isInline]
        dsimp only
        omega
      simp only [List.length_append, List.length_replicate] at hfuel
      obtain ⟨fuel, rfl⟩ : ∃ k, fuel = k + 1 := ⟨fuel - 1, by omega⟩
      rw [h.plainRuns_behind hw hmarks hrest rfl hgap hnext hin,
        ih hmarks.behind_spaces hnext hin fuel (by omega)]
      simp [← advance_add, Nat.add_assoc]
  | @fold w text out hw h ih =>
      rw [List.append_assoc, List.append_assoc] at hrest
      -- a fold starts the next word at the column of further lines, which is far enough in
      obtain ⟨hgap, hnext, hcol⟩ := h.plainGap_line (rest_advance_append hrest) (by omega)
      have hin : indent ≤ (advance (column + 1) (advance w.length c)).column := by rwa [hcol]
      simp only [List.length_append, length_lineAt] at hfuel
      obtain ⟨fuel, rfl⟩ : ∃ k, fuel = k + 1 := ⟨fuel - 1, by omega⟩
      rw [h.plainRuns_behind hw hmarks hrest rfl hgap hnext hin,
        ih hmarks.behind_spaces hnext hin fuel (by omega)]
      simp only [← advance_add, List.append_assoc, List.length_append, length_lineAt]
      congr 2
      omega

/-- A text in words is a scalar that ends with its line. -/
theorem plainScalar_of_worded (h : Worded column text out) (hmarks : Unmarked text)
    (htail : Resumes tail) (hrest : c.rest = out ++ (lineAt m ++ tail)) (hm : m < indent)
    (hcolumn : indent ≤ column) (hstart : indent ≤ c.column) :
    plainScalar false indent c = ⟨text, advance (out.length + (m + 1)) c, true⟩ := by
  rw [plainScalar, plainRuns_of_worded h hmarks htail hrest hm hcolumn hstart
    (by rw [fuel, hrest, List.length_append]; omega)]
  rfl

/-- A key is a scalar that ends at the colon behind it. -/
theorem plainScalar_of_label (h : Label key) (hrest : c.rest = key ++ ':' :: rest)
    (hgap : isGap (rest.headD '\x00') = true) :
    plainScalar false indent c = ⟨key, advance key.length c, false⟩ := by
  have hcolon : ':' ∉ key := fun hmem => h.ne hmem (by decide) rfl
  have hhash : key.head? ≠ some '#' := fun hhead =>
    h.ne (List.mem_of_head? hhead) (by decide) rfl
  have hrun : plainRun false (key ++ ':' :: rest) = key.length :=
    plainRun_append (fun ch hch => (h.word.chars ch hch).1)
      (fun front back heq => absurd (by simp [heq]) hcolon) (by rw [plainRun, hgap]; rfl)
  have hafter := rest_advance_append hrest
  have hend : plainGap (advance key.length c) = ⟨[], advance key.length c, false⟩ :=
    plainGap_spaces (n := 0) hafter (by decide)
  rw [plainScalar, fuel, plainRuns_run hrest h.nonempty hhash hrun, hend]
  rfl

end LoopPainter.Yaml
