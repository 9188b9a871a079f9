import LoopPainter.Proofs.Yaml.Pieces

/-!
# What is written of a text

Where a line is broken depends on how full it is, and so a text has many written forms.  `Laid` are
those of the pieces of a text and `Escaped` those between double quotes.  A writer adds one of them
to its sheet (`exists_laid`, `exists_escaped`).
-/

namespace LoopPainter.Yaml

variable {s t u : Sheet} {indent : ℕ} {cs out : List Char} {ps : List Piece}

/-- A line that is broken and goes on at a column. -/
def lineAt (indent : ℕ) : List Char :=
  '\n' :: List.replicate indent ' '

theorem length_lineAt (indent : ℕ) : (lineAt indent).length = indent + 1 := by
  simp [lineAt]

/-! ## Written forms -/

/-- The pieces of a text as they can be written, with lines broken at single spaces. -/
inductive Laid (quoted : Bool) (indent : ℕ) : List Piece → List Char → Prop
  | nil : Laid quoted indent [] []
  | run (cs : List Char) {ps : List Piece} {out : List Char} (h : Laid quoted indent ps out) :
      Laid quoted indent (.run cs :: ps) (cs ++ out)
  | quote {ps : List Piece} {out : List Char} (h : Laid quoted indent ps out) :
      Laid quoted indent (.quote :: ps) ((if quoted then ['\'', '\''] else ['\'']) ++ out)
  | spaces (n : ℕ) {ps : List Piece} {out : List Char} (h : Laid quoted indent ps out) :
      Laid quoted indent (.spaces n :: ps) (List.replicate n ' ' ++ out)
  | fold {ps : List Piece} {out : List Char} (h : Laid quoted indent ps out) :
      Laid quoted indent (.spaces 1 :: ps) (lineAt indent ++ out)
  | breaks (cs : List Char) {ps : List Piece} {out : List Char} (h : Laid quoted indent ps out) :
      Laid quoted indent (.breaks cs :: ps)
        (Piece.writtenBreaks cs ++ List.replicate indent ' ' ++ out)

/-- A text as it can be written with escapes, with lines broken behind a backslash. -/
inductive Escaped (indent : ℕ) : List Char → List Char → Prop
  | nil : Escaped indent [] []
  | shown {c : Char} {cs out : List Char} (hc : Sheet.isShown c = true)
      (h : Escaped indent cs out) : Escaped indent (c :: cs) (c :: out)
  | escape {c : Char} {cs out : List Char} (hc : Sheet.isShown c = false)
      (h : Escaped indent cs out) : Escaped indent (c :: cs) (Sheet.escape c ++ out)
  | fold {cs out : List Char} (hcs : cs.head? ≠ some ' ') (h : Escaped indent cs out) :
      Escaped indent cs ('\\' :: (lineAt indent ++ out))
  | foldSpace {cs out : List Char} (h : Escaped indent cs out) :
      Escaped indent (' ' :: cs) ('\\' :: (lineAt indent ++ '\\' :: ' ' :: out))

/-- A line that is broken in front of characters of which the first may be a space. -/
theorem Escaped.foldAhead (h : Escaped indent cs out)
    (hspace : ∀ rest, cs = ' ' :: rest → ∃ out', out = ' ' :: out' ∧ Escaped indent rest out') :
    Escaped indent cs ('\\' :: (lineAt indent ++
      (if cs.headD '\x00' = ' ' then ['\\'] else []) ++ out)) := by
  by_cases hnext : cs.head? = some ' '
  · obtain ⟨rest, rfl⟩ := List.head?_eq_some_iff.mp hnext
    obtain ⟨out', rfl, hescaped'⟩ := hspace rest rfl
    rw [List.headD_cons, if_pos rfl, List.append_assoc]
    exact .foldSpace hescaped'
  · have hhead : cs.headD '\x00' ≠ ' ' := by
      cases cs with
      | nil => decide
      | cons c cs => simpa using hnext
    rw [if_neg hhead, List.append_nil]
    exact .fold hnext h

namespace Sheet

/-! ## Adding to a sheet -/

/-- The second sheet has a text more, and it is no more open at its end. -/
structure Adds (s : Sheet) (out : List Char) (t : Sheet) : Prop where
  text : t.text = s.text ++ out
  openEnded : s.openEnded = false → t.openEnded = false

/-- The sheet ends in something other than white space. -/
structure Inked (s : Sheet) : Prop where
  spaced : s.spaced = false
  indented : s.indented = false

/-- The sheet is at the start of a line, behind the indentation of a column. -/
structure Fresh (s : Sheet) (column : ℕ) : Prop where
  column : s.column = column
  spaced : s.spaced = true
  indented : s.indented = true

theorem Fresh.startLine_eq (h : s.Fresh indent) : s.startLine indent = s := by
  simp [startLine, h.column, h.spaced, h.indented]

theorem Adds.refl (s : Sheet) : Adds s [] s :=
  ⟨(List.append_nil _).symm, id⟩

theorem Adds.trans {a b : List Char} (h₁ : Adds s a t) (h₂ : Adds t b u) : Adds s (a ++ b) u :=
  ⟨by rw [h₂.text, h₁.text, List.append_assoc], fun h => h₂.openEnded (h₁.openEnded h)⟩

theorem adds_write (s : Sheet) (cs : List Char) : Adds s cs (s.write cs) :=
  ⟨by simp [text, write], id⟩

theorem adds_breakLine (s : Sheet) (c : Char) : Adds s [c] (s.breakLine c) :=
  ⟨by simp [text, breakLine], id⟩

/-- Indentation on a line without any. -/
theorem adds_indentation (indent : ℕ) (hcolumn : s.column = 0) (hindented : s.indented = true)
    (hspaced : s.spaced = true) :
    Adds s (List.replicate indent ' ') (s.startLine indent) ∧
      (s.startLine indent).Fresh indent := by
  have hstay : (!s.indented || decide (indent < s.column) || (s.column == indent && !s.spaced)) =
      false := by
    simp [hindented, hcolumn, hspaced]
  simp only [startLine, hstay, Bool.false_eq_true, if_false]
  split
  · rw [hcolumn]
    exact ⟨⟨by simp [text, write], id⟩, by simp [write, hcolumn], rfl, hindented⟩
  · next hle =>
      have hzero : indent = 0 := by omega
      rw [hzero]
      exact ⟨.refl s, hcolumn, hspaced, hindented⟩

/-- A new line behind something written. -/
theorem adds_startLine (indent : ℕ) (h : s.indented = false ∨ indent < s.column) :
    Adds s (lineAt indent) (s.startLine indent) ∧ (s.startLine indent).Fresh indent := by
  have hbreak : s.startLine indent = s.breakLine.startLine indent := by
    have hgo : (!s.indented || decide (indent < s.column) || (s.column == indent && !s.spaced)) =
        true := by
      rcases h with h | h <;> simp [h]
    have hstay : (!s.breakLine.indented || decide (indent < s.breakLine.column) ||
        (s.breakLine.column == indent && !s.breakLine.spaced)) = false := by
      simp [breakLine]
    simp only [startLine, hgo, hstay, if_true, Bool.false_eq_true, if_false]
  rw [hbreak]
  obtain ⟨hadds, hstart⟩ := adds_indentation indent (s := s.breakLine) rfl rfl rfl
  exact ⟨(adds_breakLine s '\n').trans hadds, hstart⟩

/-! ## Texts in pieces -/

theorem adds_foldl_breakLine (cs : List Char) (s : Sheet) :
    Adds s cs (cs.foldl (fun s c => s.breakLine c) s) := by
  induction cs generalizing s with
  | nil => exact .refl s
  | cons c cs ih => exact (adds_breakLine s c).trans (ih _)

theorem foldl_breakLine_fresh (hcs : cs ≠ []) (s : Sheet) :
    (cs.foldl (fun s c => s.breakLine c) s).column = 0 ∧
    (cs.foldl (fun s c => s.breakLine c) s).indented = true ∧
    (cs.foldl (fun s c => s.breakLine c) s).spaced = true := by
  rw [← List.dropLast_concat_getLast hcs, List.foldl_append]
  exact ⟨rfl, rfl, rfl⟩

theorem adds_quotedBreaks (hcs : cs ≠ []) (s : Sheet) :
    Adds s (Piece.writtenBreaks cs ++ List.replicate indent ' ') (s.quotedBreaks indent cs) := by
  have hbreaks (s : Sheet) : Adds s (cs ++ List.replicate indent ' ')
      ((cs.foldl (fun s c => s.breakLine c) s).startLine indent) := by
    obtain ⟨hcolumn, hindented, hspaced⟩ := foldl_breakLine_fresh hcs s
    exact (adds_foldl_breakLine cs s).trans (adds_indentation indent hcolumn hindented hspaced).1
  rw [quotedBreaks, Piece.writtenBreaks]
  by_cases hhead : cs.head? = some '\n'
  · rw [if_pos hhead, if_pos (by simpa using hhead)]
    exact (adds_breakLine s '\n').trans (hbreaks _)
  · rw [if_neg hhead, if_neg (by simpa using hhead)]
    exact hbreaks s

/-- A writer adds a written form of the pieces, and ends in ink if the text has no breaks and is not
quoted. -/
theorem exists_laid (quoted : Bool) (split : Bool) (hindent : indent ≤ width)
    (hps : ∀ p ∈ ps, p.Sound) (first : Bool) (s : Sheet) :
    ∃ out, Laid quoted indent ps out ∧ Adds s out (pieces quoted split indent first ps s) ∧
      (quoted = false → (∀ cs, .breaks cs ∉ ps) → s.Inked →
        (pieces quoted split indent first ps s).Inked) := by
  induction ps generalizing first s with
  | nil => exact ⟨[], .nil, .refl s, fun _ _ h => h⟩
  | cons p ps ih =>
      rw [List.forall_mem_cons] at hps
      obtain ⟨hp, hps⟩ := hps
      cases p with
      | run cs =>
          obtain ⟨out, hlaid, hadds, hinked⟩ := ih hps false (s.write cs)
          exact ⟨_, .run cs hlaid, (adds_write s cs).trans hadds, fun hquoted hbreaks hs =>
            hinked hquoted (by simpa using hbreaks) ⟨hs.spaced, hs.indented⟩⟩
      | quote =>
          obtain ⟨out, hlaid, hadds, hinked⟩ :=
            ih hps false (s.write (if quoted then ['\'', '\''] else ['\'']))
          exact ⟨_, .quote hlaid, (adds_write s _).trans hadds, fun hquoted hbreaks hs =>
            hinked hquoted (by simpa using hbreaks) ⟨hs.spaced, hs.indented⟩⟩
      | breaks cs =>
          obtain ⟨out, hlaid, hadds, -⟩ := ih hps false (s.quotedBreaks indent cs)
          exact ⟨_, .breaks cs hlaid, (adds_quotedBreaks hp.1 s).trans hadds,
            fun _ hbreaks => absurd List.mem_cons_self (hbreaks cs)⟩
      | spaces n =>
          rw [pieces]
          dsimp only
          split
          · next hfold =>
              simp only [Bool.and_eq_true, beq_iff_eq, decide_eq_true_eq] at hfold
              -- only a single space gives way to a new line, when the line is full
              obtain ⟨⟨⟨⟨rfl, hfull⟩, -⟩, -⟩, -⟩ := hfold
              obtain ⟨hline, -⟩ := adds_startLine indent (s := s) (.inr (by omega))
              cases quoted with
              | true =>
                  obtain ⟨out, hlaid, hadds, -⟩ := ih hps false (s.startLine indent)
                  exact ⟨_, .fold hlaid, hline.trans hadds, nofun⟩
              | false =>
                  obtain ⟨out, hlaid, hadds, hinked⟩ := ih hps false
                    { s.startLine indent with spaced := false, indented := false }
                  have hline' : Adds s (lineAt indent)
                      { s.startLine indent with spaced := false, indented := false } :=
                    ⟨hline.text, hline.openEnded⟩
                  exact ⟨_, .fold hlaid, hline'.trans hadds,
                    fun hquoted hbreaks _ => hinked hquoted (by simpa using hbreaks) ⟨rfl, rfl⟩⟩
          · obtain ⟨out, hlaid, hadds, hinked⟩ := ih hps false (s.write (List.replicate n ' '))
            exact ⟨_, .spaces n hlaid, (adds_write s _).trans hadds, fun hquoted hbreaks hs =>
              hinked hquoted (by simpa using hbreaks) ⟨hs.spaced, hs.indented⟩⟩

/-! ## Texts between double quotes -/

theorem adds_foldQuoted (indent : ℕ) (hs : s.indented = false) (pending : List Char) (next : Char) :
    Adds s (pending ++ '\\' :: (lineAt indent ++ if next = ' ' then ['\\'] else []))
      (s.foldQuoted indent pending next) ∧
    (s.foldQuoted indent pending next).indented = false ∧
    (s.foldQuoted indent pending next).column ≤ indent + 1 := by
  have hwrite := adds_write s (pending ++ ['\\'])
  obtain ⟨hline, hfresh⟩ := adds_startLine indent (s := s.write (pending ++ ['\\'])) (.inl hs)
  let line : Sheet :=
    { (s.write (pending ++ ['\\'])).startLine indent with spaced := false, indented := false }
  have hadds : Adds s (pending ++ '\\' :: lineAt indent) line := by
    have h := hwrite.trans hline
    exact ⟨by rw [← List.append_cons] at h; exact h.text, h.openEnded⟩
  have hfold : s.foldQuoted indent pending next =
      if next == ' ' then line.write ['\\'] else line := rfl
  rw [hfold]
  -- a space that starts a line is escaped, or it would be lost with the indentation
  by_cases hnext : next = ' '
  · rw [if_pos hnext, if_pos (by simpa using hnext), ← List.cons_append, ← List.append_assoc]
    exact ⟨hadds.trans (adds_write line _), rfl, Nat.le_of_eq (congrArg (· + 1) hfresh.column)⟩
  · rw [if_neg hnext, if_neg (by simpa using hnext), List.append_nil]
    exact ⟨hadds, rfl, Nat.le_succ_of_le (Nat.le_of_eq hfresh.column)⟩

/-- A writer adds a written form of the characters that are left.  As long as the line is not full,
a space is written as it is. -/
theorem exists_escaped (split : Bool) (hindent : indent < width) (cs : List Char) (first : Bool)
    (pending : List Char) (s : Sheet) (hs : s.indented = false) :
    ∃ out, Escaped indent cs out ∧
      Adds s (pending.reverse ++ out) (doubleRest split indent first pending cs s) ∧
      (s.column + pending.length ≤ width → ∀ rest, cs = ' ' :: rest →
        ∃ out', out = ' ' :: out' ∧ Escaped indent rest out') := by
  induction cs generalizing first pending s with
  | nil =>
      refine ⟨[], .nil, ?_, nofun⟩
      rw [List.append_nil]
      exact adds_write s _
  | cons c rest ih =>
      rw [doubleRest]
      dsimp only
      by_cases hc : isShown c = true
      · rw [if_pos hc]
        split
        -- the line is full: what is pending goes out, and the shown character starts a new one
        · next hfold =>
            obtain ⟨hadds, hindented, -⟩ := adds_foldQuoted indent hs pending.reverse c
            obtain ⟨out, hescaped, hrest, -⟩ := ih false [c] _ hindented
            simp only [Bool.and_eq_true, decide_eq_true_eq] at hfold
            have hshown := Escaped.shown hc hescaped
            have hfolded := hshown.foldAhead fun rest' heq => by
              cases heq
              exact ⟨out, rfl, hescaped⟩
            exact ⟨_, hfolded, by simpa using hadds.trans hrest, fun hroom => by omega⟩
        · obtain ⟨out, hescaped, hadds, -⟩ := ih false (c :: pending) s hs
          refine ⟨c :: out, .shown hc hescaped, by simpa using hadds, ?_⟩
          rintro - _ ⟨⟩
          exact ⟨out, rfl, hescaped⟩
      · rw [if_neg hc]
        rw [Bool.not_eq_true] at hc
        -- a space is shown, so the last clause says nothing about an escaped character
        have hnospace : ∀ rest', c :: rest = ' ' :: rest' → False := by
          rintro _ ⟨⟩
          exact absurd hc (by decide)
        have hwrite := adds_write s (pending.reverse ++ escape c)
        split
        · obtain ⟨hline, hindented, hcolumn⟩ := adds_foldQuoted indent
            (s := s.write (pending.reverse ++ escape c)) hs [] (rest.headD '\x00')
          obtain ⟨out, hescaped, hrest, hspace⟩ := ih false [] _ hindented
          have hfolded := hescaped.foldAhead (hspace (Nat.le_trans hcolumn hindent))
          exact ⟨_, .escape hc hfolded, by simpa using (hwrite.trans hline).trans hrest,
            fun _ rest' h => (hnospace rest' h).elim⟩
        · obtain ⟨out, hescaped, hrest, -⟩ :=
            ih false [] (s.write (pending.reverse ++ escape c)) hs
          exact ⟨escape c ++ out, .escape hc hescaped, by simpa using hwrite.trans hrest,
            fun _ rest' h => (hnospace rest' h).elim⟩

end Sheet

end LoopPainter.Yaml
