import LoopPainter.Yaml.Cursor

/-!
# Passing characters

What a cursor reads and where it stands after it has passed characters: on one line the column grows
by one for each of them (`advance_inline`), and a line feed with the spaces behind it leads to the
column that the spaces reach (`advance_newline`).
-/

namespace LoopPainter.Yaml

/-- A character that neither ends a line nor is a byte order mark, and so takes one column. -/
def isInline (ch : Char) : Bool :=
  !isBreak ch && ch != '\ufeff'

namespace Cursor

variable {c : Cursor} {ch : Char} {a b rest : List Char}

/-! ## What is ahead -/

theorem peek_of_rest (h : c.rest = ch :: rest) : c.peek = ch := by
  simp [peek, h]

theorem peek_of_rest_nil (h : c.rest = []) (k : Nat) : c.peek k = '\x00' := by
  simp [peek, h]

theorem peek_one_of_rest (h : c.rest = ch :: rest) : c.peek 1 = rest.headD '\x00' := by
  cases rest <;> simp [peek, h]

/-! ## Passing -/

@[simp] theorem rest_next (c : Cursor) : c.next.rest = c.rest.tail := by
  unfold next
  split
  · next h => simp [h]
  · next h => split <;> simp [h]

@[simp] theorem rest_advance (n : Nat) (c : Cursor) : (advance n c).rest = c.rest.drop n := by
  induction n generalizing c with
  | zero => simp [advance]
  | succ n ih => rw [advance, ih, rest_next, List.drop_tail]

theorem rest_advance_append (h : c.rest = a ++ b) : (advance a.length c).rest = b := by
  rw [rest_advance, h, List.drop_left]

theorem advance_add (m n : Nat) (c : Cursor) : advance (m + n) c = advance n (advance m c) := by
  induction m generalizing c with
  | zero => rw [Nat.zero_add, advance]
  | succ m ih => rw [Nat.succ_add, advance, advance, ih]

theorem advance_one (c : Cursor) : advance 1 c = c.next := rfl

/-- The characters that satisfy a predicate are taken up to one that does not. -/
theorem span_append {p : Char → Bool} (h : c.rest = a ++ b) (ha : ∀ ch ∈ a, p ch = true)
    (hb : ∀ ch ∈ b.head?, p ch = false) : c.span p = (a, advance a.length c) := by
  have htaken : c.rest.takeWhile p = a := by
    rw [h, List.takeWhile_append_of_pos ha]
    cases b with
    | nil => simp
    | cons ch b => simp [hb ch rfl]
  rw [span, htaken]

theorem span_none {p : Char → Bool} (hb : ∀ ch ∈ c.rest.head?, p ch = false) :
    c.span p = ([], c) :=
  span_append (a := []) rfl (by simp) hb

theorem skip_append {p : Char → Bool} (h : c.rest = a ++ b) (ha : ∀ ch ∈ a, p ch = true)
    (hb : ∀ ch ∈ b.head?, p ch = false) : c.skip p = advance a.length c := by
  rw [skip, span_append h ha hb]

/-! ## Columns -/

theorem next_inline (h : c.rest = ch :: rest) (hch : isInline ch = true) :
    c.next = ⟨rest, c.index + 1, c.line, c.column + 1⟩ := by
  simp only [isInline, Bool.and_eq_true, Bool.not_eq_true', bne_iff_ne] at hch
  simp [next, h, hch.1, hch.2]

theorem advance_inline (h : c.rest = a ++ b) (ha : ∀ ch ∈ a, isInline ch = true) :
    advance a.length c = ⟨b, c.index + a.length, c.line, c.column + a.length⟩ := by
  induction a generalizing c with
  | nil =>
      rw [List.nil_append] at h
      rw [← h]
      rfl
  | cons ch a ih =>
      rw [List.cons_append] at h
      rw [List.length_cons, advance, next_inline h (ha ch (by simp)),
        ih rfl fun ch' hch' => ha ch' (by simp [hch'])]
      simp only [Cursor.mk.injEq, true_and]
      omega

theorem next_newline (h : c.rest = '\n' :: rest) :
    c.next = ⟨rest, c.index + 1, c.line + 1, 0⟩ := by
  simp [next, h, isBreak]

theorem lineBreak_newline (h : c.rest = '\n' :: rest) : c.lineBreak = (['\n'], c.next) := by
  rw [lineBreak, peek_of_rest h]
  rfl

theorem isInline_of_mem_replicate {m : Nat} (hch : ch ∈ List.replicate m ' ') :
    isInline ch = true := by
  rw [List.eq_of_mem_replicate hch]
  decide

/-- A line feed and spaces lead to the column behind the spaces. -/
theorem advance_newline {m : Nat} (h : c.rest = '\n' :: (List.replicate m ' ' ++ rest)) :
    advance (m + 1) c = ⟨rest, c.index + 1 + m, c.line + 1, m⟩ := by
  have hspaces := advance_inline (c := c.next) (a := List.replicate m ' ') (b := rest)
    (by rw [next_newline h]) fun ch hch => isInline_of_mem_replicate hch
  rw [advance, ← List.length_replicate (n := m) (a := ' '), hspaces, next_newline h]
  simp

/-- A text that neither goes on with hyphens nor with dots has no document mark ahead. -/
theorem atDocumentMark_eq_false (h : c.rest = ch :: rest) (hch : ch ≠ '-') (hch' : ch ≠ '.') :
    c.atDocumentMark = false := by
  simp [atDocumentMark, startsWith, h, Ne.symm hch, Ne.symm hch']

end Cursor

end LoopPainter.Yaml
