import LoopPainter.Yaml.Layout
import LoopPainter.Yaml.Scalar
import Mathlib.Tactic.Common

/-!
# The pieces of a text

A text is written piece by piece, and put together its pieces are the text (`flatMap_chars_ofText`).
In a text without spaces beside its breaks no piece of white space has another one for a neighbor
(`apart_ofText`), so that a reader can tell where each of them ends.

A reader takes a next-line character for a line feed.  What it reads of a piece is `Piece.readBack`,
and this is the piece itself exactly if no such character is in it.
-/

namespace LoopPainter.Yaml

variable {s : List Char} {c : Char}

/-! ## Styles -/

/-- What holds of a text that is not written with escapes. -/
structure Unescaped (s : List Char) : Prop where
  special : ∀ c ∈ s, isSpecial c = false
  spaceBeforeBreak : anyNeighbors (fun a b => a == ' ' && isWrittenBreak b) s = false
  spaceAfterBreak : anyNeighbors (fun a b => isWrittenBreak a && b == ' ') s = false

/-- What holds besides of a text that is written without quotes. -/
structure Unquoted (s : List Char) : Prop extends Unescaped s where
  nonempty : s ≠ []
  head : ∀ c ∈ s.head?, isSpaceOrBreak c = false
  last : ∀ c ∈ s.getLast?, isSpaceOrBreak c = false
  breaks : ∀ c ∈ s, isWrittenBreak c = false
  indicators : hasIndicator s = false

theorem unescaped_of_styleOf (h : styleOf s ≠ .double) : Unescaped s := by
  have hdouble : ((traitsOf s).special || (traitsOf s).spaceBeforeBreak ||
      (traitsOf s).spaceAfterBreak) = false := by
    by_contra hor
    exact h (by rw [styleOf, if_pos (by rwa [Bool.not_eq_false] at hor)])
  simp only [Bool.or_eq_false_iff, traitsOf, List.any_eq_false, Bool.not_eq_true] at hdouble
  exact ⟨hdouble.1.1, hdouble.1.2, hdouble.2⟩

/-- A text is written without quotes only if it has the form of a text. -/
theorem unquoted_of_styleOf (h : styleOf s = .plain) : Unquoted s ∧ Tag.ofPlain s = .str := by
  have hunescaped : Unescaped s := unescaped_of_styleOf (by rw [h]; nofun)
  unfold styleOf at h
  dsimp only at h
  split at h
  · cases h
  · split at h
    · next hplain =>
        simp only [Bool.and_eq_true, decide_eq_true_eq, Bool.not_eq_true', traitsOf,
          Bool.or_eq_false_iff, List.any_eq_false, Bool.not_eq_true, Option.any_eq_false]
          at hplain
        obtain ⟨⟨⟨htag, hhead, hlast⟩, hbreaks⟩, hindicators⟩ := hplain
        have hne : s ≠ [] := by
          rintro rfl
          cases htag
        exact ⟨⟨hunescaped, hne, by simpa using hhead, by simpa using hlast, hbreaks, hindicators⟩,
          htag⟩
    · cases h

/-! ## Pieces -/

namespace Piece

/-- The part of the text. -/
def chars : Piece → List Char
  | run cs => cs
  | spaces n => List.replicate n ' '
  | breaks cs => cs
  | quote => ['\'']

/-- A piece of white space. -/
def isWhite : Piece → Bool
  | spaces _ | breaks _ => true
  | run _ | quote => false

/-- A piece holds characters of its kind, and at least one. -/
def Sound : Piece → Prop
  | run cs => cs ≠ [] ∧ ∀ c ∈ cs, c ≠ '\'' ∧ c ≠ ' ' ∧ isWrittenBreak c = false
  | spaces n => 0 < n
  | breaks cs => cs ≠ [] ∧ ∀ c ∈ cs, isWrittenBreak c = true
  | quote => True

/-- No piece of white space has another one for a neighbor. -/
def Apart : List Piece → Prop
  | [] => True
  | p :: ps => (∀ q ∈ ps.head?, p.isWhite = false ∨ q.isWhite = false) ∧ Apart ps

theorem ofText_cons (c : Char) (s : List Char) : ofText (c :: s) = push c (ofText s) := rfl

/-- The four ways in which a character is put in front of pieces. -/
theorem push_cases (c : Char) (ps : List Piece) :
    (c = '\'' ∧ push c ps = .quote :: ps) ∨
    (c = ' ' ∧ ((∃ n rest, ps = .spaces n :: rest ∧ push c ps = .spaces (n + 1) :: rest) ∨
      ((∀ n rest, ps ≠ .spaces n :: rest) ∧ push c ps = .spaces 1 :: ps))) ∨
    (isWrittenBreak c = true ∧
      ((∃ cs rest, ps = .breaks cs :: rest ∧ push c ps = .breaks (c :: cs) :: rest) ∨
        ((∀ cs rest, ps ≠ .breaks cs :: rest) ∧ push c ps = .breaks [c] :: ps))) ∨
    ((c ≠ '\'' ∧ c ≠ ' ' ∧ isWrittenBreak c = false) ∧
      ((∃ cs rest, ps = .run cs :: rest ∧ push c ps = .run (c :: cs) :: rest) ∨
        push c ps = .run [c] :: ps)) := by
  -- the character decides between the four, and the first piece whether it is extended
  unfold push
  split
  · next h => exact .inl ⟨by simpa using h, rfl⟩
  · next hquote =>
      split
      · next h =>
          refine .inr (.inl ⟨by simpa using h, ?_⟩)
          dsimp only
          split
          · exact .inl ⟨_, _, rfl, rfl⟩
          · next hnot => exact .inr ⟨fun n rest heq => hnot n rest heq, rfl⟩
      · next hspace =>
          split
          · next h =>
              refine .inr (.inr (.inl ⟨h, ?_⟩))
              dsimp only
              split
              · exact .inl ⟨_, _, rfl, rfl⟩
              · next hnot => exact .inr ⟨fun n rest heq => hnot n rest heq, rfl⟩
          · next hbreak =>
              refine .inr (.inr (.inr ⟨⟨by simpa using hquote, by simpa using hspace,
                by simpa using hbreak⟩, ?_⟩))
              dsimp only
              split
              · exact .inl ⟨_, _, rfl, rfl⟩
              · exact .inr rfl

/-- Put together, the pieces are the text. -/
theorem flatMap_chars_ofText (s : List Char) : (ofText s).flatMap chars = s := by
  induction s with
  | nil => rfl
  | cons c s ih =>
      have hpush : (push c (ofText s)).flatMap chars = c :: (ofText s).flatMap chars := by
        rcases push_cases c (ofText s) with ⟨rfl, h⟩ | ⟨rfl, ⟨n, rest, heq, h⟩ | ⟨-, h⟩⟩ |
          ⟨-, ⟨cs, rest, heq, h⟩ | ⟨-, h⟩⟩ | ⟨-, ⟨cs, rest, heq, h⟩ | h⟩
        · rw [h]
          rfl
        · rw [h, heq]
          rfl
        · rw [h]
          rfl
        · rw [h, heq]
          rfl
        · rw [h]
          rfl
        · rw [h, heq]
          rfl
        · rw [h]
          rfl
      rw [ofText_cons, hpush, ih]

theorem sound_ofText (s : List Char) : ∀ p ∈ ofText s, p.Sound := by
  induction s with
  | nil => nofun
  | cons c s ih =>
      rw [ofText_cons]
      rcases push_cases c (ofText s) with ⟨rfl, h⟩ | ⟨rfl, ⟨n, rest, heq, h⟩ | ⟨-, h⟩⟩ |
        ⟨hc, ⟨cs, rest, heq, h⟩ | ⟨-, h⟩⟩ | ⟨hc, ⟨cs, rest, heq, h⟩ | h⟩ <;> rw [h]
      all_goals
        first | rw [heq, List.forall_mem_cons] at ih | skip
        rw [List.forall_mem_cons]
      · exact ⟨trivial, ih⟩
      · exact ⟨Nat.succ_pos n, ih.2⟩
      · exact ⟨Nat.one_pos, ih⟩
      · exact ⟨⟨nofun, List.forall_mem_cons.mpr ⟨hc, ih.1.2⟩⟩, ih.2⟩
      · exact ⟨⟨nofun, by simpa using hc⟩, ih⟩
      · exact ⟨⟨nofun, List.forall_mem_cons.mpr ⟨hc, ih.1.2⟩⟩, ih.2⟩
      · exact ⟨⟨nofun, by simpa using hc⟩, ih⟩

theorem mem_of_mem_chars {p : Piece} (hp : p ∈ ofText s) (hc : c ∈ p.chars) : c ∈ s := by
  rw [← flatMap_chars_ofText s]
  exact List.mem_flatMap.mpr ⟨p, hp, hc⟩

theorem ofText_ne_nil (h : s ≠ []) : ofText s ≠ [] := by
  intro hnil
  have hchars := flatMap_chars_ofText s
  rw [hnil] at hchars
  exact h hchars.symm

/-- White space at the start of the pieces comes from the start of the text. -/
theorem exists_of_head?_breaks {cs : List Char} {ps : List Piece}
    (h : ofText s = .breaks cs :: ps) : ∃ b rest, s = b :: rest ∧ isWrittenBreak b = true := by
  obtain ⟨hne, hbreaks⟩ : Sound (.breaks cs) := sound_ofText s _ (by simp [h])
  cases cs with
  | nil => exact absurd rfl hne
  | cons b cs =>
      refine ⟨b, cs ++ ps.flatMap chars, ?_, hbreaks b (by simp)⟩
      rw [← flatMap_chars_ofText s, h]
      rfl

theorem exists_of_head?_spaces {n : ℕ} {ps : List Piece} (h : ofText s = .spaces n :: ps) :
    ∃ rest, s = ' ' :: rest := by
  obtain hpos : Sound (.spaces n) := sound_ofText s _ (by simp [h])
  cases n with
  | zero => cases hpos
  | succ n =>
      refine ⟨List.replicate n ' ' ++ ps.flatMap chars, ?_⟩
      rw [← flatMap_chars_ofText s, h]
      rfl

/-- A text without quotation marks and white space is one piece. -/
theorem ofText_eq_run (hne : s ≠ []) (h : ∀ c ∈ s, c ≠ '\'' ∧ c ≠ ' ' ∧ isWrittenBreak c = false) :
    ofText s = [.run s] := by
  induction s with
  | nil => exact absurd rfl hne
  | cons c s ih =>
      rw [List.forall_mem_cons] at h
      obtain ⟨⟨hquote, hspace, hbreak⟩, hs⟩ := h
      rw [ofText_cons]
      cases s with
      | nil => simp [ofText, push, hquote, hspace, hbreak]
      | cons b s =>
          rw [ih nofun hs]
          simp [push, hquote, hspace, hbreak]

theorem breaks_not_mem_ofText (h : ∀ c ∈ s, isWrittenBreak c = false) (cs : List Char) :
    .breaks cs ∉ ofText s := by
  intro hmem
  obtain ⟨hne, hbreaks⟩ : Sound (.breaks cs) := sound_ofText s _ hmem
  obtain ⟨b, cs, rfl⟩ := List.exists_cons_of_ne_nil hne
  have hb := h b (mem_of_mem_chars hmem List.mem_cons_self)
  rw [hbreaks b List.mem_cons_self] at hb
  cases hb

theorem isWhite_head?_ofText (h : ∀ c ∈ s, isWrittenBreak c = false)
    (hhead : ∀ c ∈ s.head?, c ≠ ' ') : ∀ p ∈ (ofText s).head?, p.isWhite = false := by
  intro p hp
  obtain ⟨ps, hps⟩ := List.head?_eq_some_iff.mp hp
  cases p with
  | spaces n =>
      obtain ⟨rest, rfl⟩ := exists_of_head?_spaces hps
      exact absurd rfl (hhead ' ' rfl)
  | breaks cs => exact absurd (by simp [hps]) (breaks_not_mem_ofText h cs)
  | run cs => rfl
  | quote => rfl

theorem isWhite_getLast?_ofText (h : ∀ c ∈ s, isWrittenBreak c = false)
    (hlast : ∀ c ∈ s.getLast?, c ≠ ' ') : ∀ p ∈ (ofText s).getLast?, p.isWhite = false := by
  intro p hp
  have hmem : p ∈ ofText s := List.mem_of_getLast? hp
  cases p with
  | spaces n =>
      have hsound : Sound (.spaces n) := sound_ofText s _ hmem
      obtain ⟨n, rfl⟩ : ∃ k, n = k + 1 := ⟨n - 1, (Nat.sub_add_cancel hsound).symm⟩
      obtain ⟨ps, hps⟩ := List.getLast?_eq_some_iff.mp hp
      refine absurd rfl (hlast ' ' ?_)
      rw [← flatMap_chars_ofText s, hps]
      simp [chars, List.replicate_succ', ← List.append_assoc]
  | breaks cs => exact absurd hmem (breaks_not_mem_ofText h cs)
  | run cs => rfl
  | quote => rfl

theorem anyNeighbors_of_cons {p : Char → Char → Bool} (h : anyNeighbors p (c :: s) = false) :
    anyNeighbors p s = false ∧ ∀ b rest, s = b :: rest → p c b = false := by
  cases s with
  | nil => exact ⟨rfl, nofun⟩
  | cons b rest =>
      simp only [anyNeighbors, Bool.or_eq_false_iff] at h
      exact ⟨h.2, by rintro _ _ ⟨⟩; exact h.1⟩

theorem apart_ofText (hbefore : anyNeighbors (fun a b => a == ' ' && isWrittenBreak b) s = false)
    (hafter : anyNeighbors (fun a b => isWrittenBreak a && b == ' ') s = false) :
    Apart (ofText s) := by
  induction s with
  | nil => trivial
  | cons c s ih =>
      obtain ⟨hbefore, hbefore'⟩ := anyNeighbors_of_cons hbefore
      obtain ⟨hafter, hafter'⟩ := anyNeighbors_of_cons hafter
      specialize ih hbefore hafter
      rw [ofText_cons]
      rcases push_cases c (ofText s) with ⟨rfl, h⟩ | ⟨rfl, ⟨n, rest, heq, h⟩ | ⟨hnot, h⟩⟩ |
        ⟨hc, ⟨cs, rest, heq, h⟩ | ⟨hnot, h⟩⟩ | ⟨hc, ⟨cs, rest, heq, h⟩ | h⟩ <;> rw [h]
      · exact ⟨fun _ _ => .inl rfl, ih⟩
      · rw [heq] at ih
        exact ih
      -- a space in front of another piece: a break there would stand behind a space
      · refine ⟨fun q hq => .inr ?_, ih⟩
        obtain ⟨ps, hps⟩ := List.head?_eq_some_iff.mp hq
        cases q with
        | spaces n => exact absurd hps (hnot n ps)
        | breaks cs =>
            obtain ⟨b, rest, rfl, hb⟩ := exists_of_head?_breaks hps
            simpa [hb] using hbefore' b rest rfl
        | run cs => rfl
        | quote => rfl
      · rw [heq] at ih
        exact ih
      -- a break in front of another piece: a space there would stand behind a break
      · refine ⟨fun q hq => .inr ?_, ih⟩
        obtain ⟨ps, hps⟩ := List.head?_eq_some_iff.mp hq
        cases q with
        | spaces n =>
            obtain ⟨rest, rfl⟩ := exists_of_head?_spaces hps
            simpa [hc] using hafter' ' ' rest rfl
        | breaks cs => exact absurd hps (hnot cs ps)
        | run cs => rfl
        | quote => rfl
      · rw [heq] at ih
        exact ih
      · exact ⟨fun _ _ => .inl rfl, ih⟩

/-! ## What is read -/

/-- A line break as it is read. -/
def seenBreak (c : Char) : Char :=
  if c = '\u0085' then '\n' else c

/-- Breaks as they are written between quotes. -/
def writtenBreaks (cs : List Char) : List Char :=
  if cs.head? = some '\n' then '\n' :: cs else cs

/-- What is read of a piece. -/
def readBack : Piece → List Char
  | breaks cs =>
    match (writtenBreaks cs).map seenBreak with
    | [] => []
    | first :: rest => foldBreaks [first] rest
  | p => p.chars

theorem mem_foldBreaks {a b : List Char} (h : c ∈ foldBreaks a b) : c ∈ a ∨ c ∈ b ∨ c = ' ' := by
  unfold foldBreaks at h
  split at h
  · exact (List.mem_append.mp h).imp id .inl
  · split at h
    · exact .inr (.inr (by simpa using h))
    · exact .inr (.inl h)

theorem map_seenBreak_eq_self {cs : List Char} (h : '\u0085' ∉ cs) : cs.map seenBreak = cs := by
  refine (List.map_congr_left fun b hb => ?_).trans (List.map_id cs)
  exact if_neg (ne_of_mem_of_not_mem hb h)

theorem readBack_eq_chars {p : Piece} (h : '\u0085' ∉ p.chars) : p.readBack = p.chars := by
  cases p with
  | breaks cs =>
      rw [chars] at h
      rw [readBack, chars]
      cases cs with
      | nil => rfl
      | cons b cs =>
          by_cases hb : b = '\n'
          · subst hb
            have hwritten : writtenBreaks ('\n' :: cs) = '\n' :: '\n' :: cs := if_pos rfl
            rw [hwritten, map_seenBreak_eq_self (by simpa using h)]
            simp [foldBreaks]
          · have hwritten : writtenBreaks (b :: cs) = b :: cs := if_neg (by simpa using hb)
            rw [hwritten, map_seenBreak_eq_self h]
            simp [foldBreaks, hb]
  | run cs => rfl
  | spaces n => rfl
  | quote => rfl

/-- The next-line character is never read. -/
theorem not_mem_readBack {p : Piece} (h : p.Sound) : '\u0085' ∉ p.readBack := by
  have hseen (b : Char) : seenBreak b ≠ '\u0085' := by
    unfold seenBreak
    split
    · decide
    · assumption
  intro hmem
  cases p with
  | breaks cs =>
      rw [readBack] at hmem
      have hwritten : '\u0085' ∉ (writtenBreaks cs).map seenBreak := fun hmem =>
        let ⟨b, _, hb⟩ := List.mem_map.mp hmem
        hseen b hb
      cases hcs : (writtenBreaks cs).map seenBreak with
      | nil => simp [hcs] at hmem
      | cons first rest =>
          rw [hcs] at hmem hwritten
          rcases mem_foldBreaks hmem with hfirst | hrest | hspace
          · exact hwritten (by simpa using Or.inl (List.mem_singleton.mp hfirst))
          · exact hwritten (List.mem_cons_of_mem _ hrest)
          · cases hspace
  | run cs => exact absurd (h.2 _ hmem).2.2 (by decide)
  | spaces n => cases List.eq_of_mem_replicate hmem
  | quote => simp [readBack, chars] at hmem

end Piece

/-- What is read of a text that was written. -/
def readBack (s : List Char) : List Char :=
  if styleOf s = .double then s else (Piece.ofText s).flatMap Piece.readBack

theorem readBack_of_not_mem (h : '\u0085' ∉ s) : readBack s = s := by
  unfold readBack
  split
  · rfl
  · have hpieces : (Piece.ofText s).map Piece.readBack = (Piece.ofText s).map Piece.chars := by
      exact List.map_congr_left fun p hp => Piece.readBack_eq_chars fun hmem =>
        h (Piece.mem_of_mem_chars hp hmem)
    rw [List.flatMap_def, hpieces, ← List.flatMap_def, Piece.flatMap_chars_ofText]

theorem not_mem_readBack (h : styleOf s ≠ .double) : '\u0085' ∉ readBack s := by
  rw [readBack, if_neg h]
  intro hmem
  obtain ⟨p, hp, hmem⟩ := List.mem_flatMap.mp hmem
  exact Piece.not_mem_readBack (Piece.sound_ofText s p hp) hmem

/-- A text is read back exactly if it is written with escapes or without a next-line character. -/
theorem readBack_eq_self_iff : readBack s = s ↔ ('\u0085' ∈ s → styleOf s = .double) := by
  constructor
  · intro h hmem
    by_contra hstyle
    exact not_mem_readBack hstyle (by rwa [h])
  · intro h
    by_cases hmem : '\u0085' ∈ s
    · rw [readBack, if_pos (h hmem)]
    · exact readBack_of_not_mem hmem

end LoopPainter.Yaml
