import LoopPainter.Proofs.Yaml.Lexing
import LoopPainter.Proofs.Yaml.Meaning
import LoopPainter.Proofs.Yaml.Numbers
import LoopPainter.Yaml.Printer

/-!
# Scalars written and read

Behind the colon of a key, or the hyphen of a list item, a text is written in the style that it
needs and a whole number in decimal.  `Scribes` says that a scalar is read as another one, wherever
it is written; a number is read as itself, and a text as `readBack` says.
-/

namespace LoopPainter.Yaml

variable {s t : Sheet} {text out cs : List Char} {ch : Char} {ps : List Piece} {column n : ℕ}
  {i : ℤ}
  {d d' : Datum}

/-! ## Allowed characters -/

/-- Characters that may occur in a YAML file and that a reader of text files leaves alone. -/
def Legible (out : List Char) : Prop :=
  ∀ ch ∈ out, isAllowed ch = true ∧ ch ≠ '\r'

theorem Legible.append {a b : List Char} (ha : Legible a) (hb : Legible b) : Legible (a ++ b) :=
  fun ch hch => (List.mem_append.mp hch).elim (ha ch) (hb ch)

theorem Legible.nil : Legible [] :=
  List.forall_mem_nil _

theorem Legible.cons (hch : isAllowed ch = true ∧ ch ≠ '\r') (h : Legible out) :
    Legible (ch :: out) :=
  List.forall_mem_cons.mpr ⟨hch, h⟩

theorem legible_lineAt (indent : ℕ) : Legible (lineAt indent) :=
  .cons (by decide) fun ch hch => by rw [List.eq_of_mem_replicate hch]; decide

theorem isAllowed_of_isSpecial (h : isSpecial ch = false) : isAllowed ch = true ∧ ch ≠ '\r' := by
  refine ⟨?_, ?_⟩
  · simp only [isSpecial, Bool.and_eq_false_iff, Bool.not_eq_false', Bool.or_eq_true,
      Bool.and_eq_true, beq_iff_eq, decide_eq_true_eq, bne_iff_ne] at h
    simp only [isAllowed, Bool.or_eq_true, Bool.and_eq_true, beq_iff_eq, decide_eq_true_eq]
    rcases h with (rfl | h) | h
    · decide
    · omega
    · omega
  · rintro rfl
    cases h

theorem isAllowed_of_isShown (h : Sheet.isShown ch = true) : isAllowed ch = true ∧ ch ≠ '\r' := by
  refine ⟨?_, ?_⟩
  · simp only [Sheet.isShown, Bool.and_eq_true, Bool.or_eq_true, decide_eq_true_eq] at h
    simp only [isAllowed, Bool.or_eq_true, Bool.and_eq_true, beq_iff_eq, decide_eq_true_eq]
    omega
  · rintro rfl
    cases h

theorem isAllowed_of_isHexDigit (h : Text.isHexDigit ch = true) :
    isAllowed ch = true ∧ ch ≠ '\r' := by
  refine ⟨?_, ?_⟩
  · simp only [Text.isHexDigit, Text.isDigit, Bool.and_eq_true, Bool.or_eq_true, decide_eq_true_eq,
      Char.le_def, UInt32.le_iff_toNat_le] at h
    have hrange : 48 ≤ ch.toNat ∧ ch.toNat ≤ 102 := by
      rcases h with (h | h) | h
      · exact ⟨h.1, h.2.trans (by decide)⟩
      · exact ⟨le_trans (by decide) h.1, h.2⟩
      · exact ⟨le_trans (by decide) h.1, h.2.trans (by decide)⟩
    simp only [isAllowed, Bool.or_eq_true, Bool.and_eq_true, beq_iff_eq, decide_eq_true_eq]
    omega
  · rintro rfl
    cases h

theorem legible_of_isSpecial (h : ∀ ch ∈ out, isSpecial ch = false) : Legible out :=
  fun ch hch => isAllowed_of_isSpecial (h ch hch)

theorem Laid.legible {quoted : Bool} (h : Laid quoted column ps out)
    (hspecial : ∀ p ∈ ps, ∀ ch ∈ p.chars, isSpecial ch = false) : Legible out := by
  induction h with
  | nil => exact .nil
  | run cs h ih =>
      rw [List.forall_mem_cons] at hspecial
      exact (legible_of_isSpecial hspecial.1).append (ih hspecial.2)
  | quote h ih =>
      rw [List.forall_mem_cons] at hspecial
      refine .append ?_ (ih hspecial.2)
      cases quoted
      · exact .cons (by decide) .nil
      · exact .cons (by decide) (.cons (by decide) .nil)
  | spaces n h ih =>
      rw [List.forall_mem_cons] at hspecial
      exact (legible_of_isSpecial hspecial.1).append (ih hspecial.2)
  | fold h ih =>
      rw [List.forall_mem_cons] at hspecial
      exact (legible_lineAt column).append (ih hspecial.2)
  | breaks cs h ih =>
      rw [List.forall_mem_cons] at hspecial
      refine .append (.append ?_ ?_) (ih hspecial.2)
      · rw [Piece.writtenBreaks]
        split
        · exact .cons (by decide) (legible_of_isSpecial hspecial.1)
        · exact legible_of_isSpecial hspecial.1
      · exact fun ch hch => by rw [List.eq_of_mem_replicate hch]; decide

theorem legible_escape (ch : Char) : Legible (Sheet.escape ch) := by
  have hletter : ∀ ch l, Sheet.escapeLetter? ch = some l → isAllowed l = true ∧ l ≠ '\r' := by
    intro ch l h
    unfold Sheet.escapeLetter? at h
    split at h <;> cases h <;> decide
  have hhex (letter : Char) (hletter : isAllowed letter = true ∧ letter ≠ '\r') (width : ℕ) :
      Legible ('\\' :: letter :: Sheet.capitalHex width ch.toNat) :=
    .cons (by decide)
      (.cons hletter fun x hx => isAllowed_of_isHexDigit (isHexDigit_of_mem_capitalHex hx))
  unfold Sheet.escape
  split
  · next l hl => exact .cons (by decide) (.cons (hletter _ l hl) .nil)
  · split
    · exact hhex 'x' (by decide) 2
    · split
      · exact hhex 'u' (by decide) 4
      · exact hhex 'U' (by decide) 8

theorem Escaped.legible (h : Escaped column cs out) : Legible out := by
  induction h with
  | nil => exact .nil
  | shown hc h ih => exact .cons (isAllowed_of_isShown hc) ih
  | escape hc h ih => exact (legible_escape _).append ih
  | fold hcs h ih => exact .cons (by decide) ((legible_lineAt column).append ih)
  | foldSpace h ih =>
      exact .cons (by decide)
        ((legible_lineAt column).append (.cons (by decide) (.cons (by decide) ih)))

/-! ## Three styles -/

namespace Sheet

theorem adds_indicator (s : Sheet) (mark : List Char) (apart spaced indentation : Bool) :
    Adds s (if s.spaced || !apart then mark else ' ' :: mark)
      (s.indicator mark apart spaced indentation) :=
  ⟨(adds_write s _).text, fun _ => rfl⟩

theorem exists_worded (h : Unquoted text) (hcolumn : column ≤ width) (split : Bool)
    (hs : s.spaced = false) :
    ∃ out, Worded column text out ∧ s.Adds (' ' :: out) (s.plain false split column text) ∧
      (s.plain false split column text).Inked ∧ Legible out := by
  have hwordy := h.wordy
  let start : Sheet := { s.write [' '] with spaced := false, indented := false }
  obtain ⟨out, hlaid, hadds, hinked⟩ := exists_laid false split hcolumn hwordy.sound true start
  have hplain : s.plain false split column text =
      pieces false split column true (Piece.ofText text) start := by
    have hempty : text.isEmpty = false := by
      rw [List.isEmpty_eq_false_iff]
      exact h.nonempty
    simp [plain, hempty, hs, start]
  rw [hplain]
  refine ⟨out, ?_, ?_, hinked rfl hwordy.breaks ⟨rfl, rfl⟩, hlaid.legible hwordy.special⟩
  · have hworded := (worded_of_laid hlaid hwordy).2 (Piece.ofText_ne_nil h.nonempty) h.isWhite_head?
    rwa [Piece.flatMap_chars_ofText] at hworded
  · have hstart : s.Adds [' '] start := ⟨(adds_write s [' ']).text, id⟩
    exact hstart.trans hadds

theorem exists_singleQuoted (h : Unescaped text) (hcolumn : column ≤ width) (hpos : 0 < column)
    (split : Bool) (hs : s.spaced = false) :
    ∃ out, QuotedReads false out ((Piece.ofText text).flatMap Piece.readBack) ∧
      s.Adds (' ' :: '\'' :: (out ++ ['\''])) (s.singleQuoted split column text) ∧
      (s.singleQuoted split column text).Inked ∧ Legible out := by
  have hclear := h.clear
  have hopen := adds_indicator s ['\''] true false false
  rw [hs] at hopen
  obtain ⟨out, hlaid, hadds, -⟩ := exists_laid true split hcolumn hclear.sound true
    (s.indicator ['\''] true)
  have hclose := adds_indicator (pieces true split column true (Piece.ofText text)
    (s.indicator ['\''] true)) ['\''] false false false
  rw [Bool.not_false, Bool.or_true, if_pos rfl] at hclose
  refine ⟨out, quotedReads_laid hpos hlaid hclear, ?_, ⟨rfl, Bool.and_false _⟩,
    hlaid.legible hclear.special⟩
  exact hopen.trans (hadds.trans hclose)

theorem exists_doubleQuoted (text : List Char) (hcolumn : column < width) (hpos : 0 < column)
    (split : Bool) (hs : s.spaced = false) :
    ∃ out, QuotedReads true out text ∧
      s.Adds (' ' :: '"' :: (out ++ ['"'])) (s.doubleQuoted split column text) ∧
      (s.doubleQuoted split column text).Inked ∧ Legible out := by
  have hopen := adds_indicator s ['"'] true false false
  rw [hs] at hopen
  obtain ⟨out, hescaped, hadds, -⟩ := exists_escaped split hcolumn text true []
    (s.indicator ['"'] true) (Bool.and_false _)
  have hclose := adds_indicator (doubleRest split column true [] text (s.indicator ['"'] true))
    ['"'] false false false
  rw [Bool.not_false, Bool.or_true, if_pos rfl] at hclose
  refine ⟨out, quotedReads_escaped hpos hescaped, ?_, ⟨rfl, Bool.and_false _⟩, hescaped.legible⟩
  exact hopen.trans (hadds.trans hclose)

end Sheet

/-! ## Scalars -/

/-- A scalar behind a colon or a hyphen, in a mapping or list at a column, is read as another one.
-/
def Scribes (n : ℕ) (d d' : Datum) : Prop :=
  ∀ (position : Position) (s : Sheet), position = .item ∨ position = .value → s.spaced = false →
    ∃ plain text out, Lexer.Scribed (n + 2) plain text out ∧ Legible out ∧
      Means (.single (Node.scalarNode none plain (String.ofList text))) d' ∧
      s.Adds (' ' :: out) (Sheet.node position (some n) d s) ∧
      (Sheet.node position (some n) d s).Inked

theorem scribes_int (hn : n + 2 ≤ Sheet.width) (hi : Text.isTooLong i = false) :
    Scribes n (.int i) (.int i) := by
  intro position s hposition hs
  have hnode : Sheet.node position (some n) (.int i) s =
      s.plain false true (n + 2) (Text.intDecimal i) := by
    rw [Sheet.node]
    · rcases hposition with rfl | rfl <;> rfl
    all_goals simp
  have hmeans : Node.scalarNode none true (String.ofList (Text.intDecimal i)) =
      .scalar .int (String.ofList (Text.intDecimal i)) := by
    simp [Node.scalarNode, ofPlain_intDecimal]
  obtain ⟨out, hworded, hadds, hinked, hlegible⟩ :=
    Sheet.exists_worded (unquoted_intDecimal i) hn true hs
  rw [← hnode] at hadds hinked
  refine ⟨true, _, out, .plain hworded (hasIndicator_intDecimal i), hlegible, ?_, hadds, hinked⟩
  rw [hmeans]
  exact means_int (readInteger_intDecimal hi)

theorem scribes_text (hn : n + 2 < Sheet.width) (text : String) :
    Scribes n (.text text) (.text (String.ofList (readBack text.toList))) := by
  intro position s hposition hs
  have hscalar : Sheet.node position (some n) (.text text) s =
      s.scalar position (some n) (.text text) := by
    rw [Sheet.node]
    all_goals simp
  have hinner : (position == .root) = false ∧ (position != .key) = true := by
    rcases hposition with rfl | rfl <;> decide
  have hleaf : leafStyle (.text text) = styleOf text.toList := rfl
  rw [hscalar, Sheet.scalar, hleaf, hinner.1, hinner.2]
  -- the style of a text decides how it is written, and only single quotes may change it
  cases hstyle : styleOf text.toList with
  | plain =>
      obtain ⟨hunquoted, htag⟩ := unquoted_of_styleOf hstyle
      have hread : readBack text.toList = text.toList := by
        refine readBack_of_not_mem fun hmem => ?_
        cases hunquoted.breaks _ hmem
      have hmeans : Node.scalarNode none true (String.ofList text.toList) = .scalar .str text := by
        simp [Node.scalarNode, htag]
      obtain ⟨out, hworded, hadds, hinked, hlegible⟩ := Sheet.exists_worded hunquoted hn.le true hs
      refine ⟨true, _, out, .plain hworded hunquoted.indicators, hlegible, ?_, hadds, hinked⟩
      rw [hmeans, hread, String.ofList_toList]
      exact means_text text
  | single =>
      have hread : readBack text.toList = (Piece.ofText text.toList).flatMap Piece.readBack :=
        if_neg (by rw [hstyle]; decide)
      obtain ⟨out, hreads, hadds, hinked, hlegible⟩ := Sheet.exists_singleQuoted
        (unescaped_of_styleOf (by rw [hstyle]; decide)) hn.le (by omega) true hs
      refine ⟨false, _, _, .quoted false hreads, ?_, ?_, hadds, hinked⟩
      · exact .cons (by decide) (hlegible.append (.cons (by decide) .nil))
      · rw [hread]
        exact means_text _
  | double =>
      have hread : readBack text.toList = text.toList := if_pos hstyle
      obtain ⟨out, hreads, hadds, hinked, hlegible⟩ :=
        Sheet.exists_doubleQuoted text.toList hn (by omega) true hs
      refine ⟨false, _, _, .quoted true hreads, ?_, ?_, hadds, hinked⟩
      · exact .cons (by decide) (hlegible.append (.cons (by decide) .nil))
      · rw [hread]
        exact means_text _

/-- A scalar as it is read after it was written. -/
def readScalar : Datum → Datum
  | .text text => .text (String.ofList (readBack text.toList))
  | d => d

end LoopPainter.Yaml
