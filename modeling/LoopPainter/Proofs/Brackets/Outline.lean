import LoopPainter.Proofs.Brackets.Depth

/-!
# The tree of a text and its unrolling

A `Block` is a text in which every bracket has its partner, as a tree: a loop holds
the block between its brackets.  An `Outline` is a row of blocks set apart by `[`
that are never closed.  A whole text is read (`Reading.ofText`) either as an outline,
or as a block and a `]` without partner, behind which nothing is read any more.

`Reading.text_ofText` and `Reading.ofText_text` say that the tree of a text is one of
that text and the only one, `Block.depth_nonneg` and `Block.depth_length` that blocks
are balanced; which brackets the tree pairs is settled in `Pairs.lean`.

`unroll` replaces every loop by its body written twice, the inner loops unrolled
first, and keeps only the four characters that do something by themselves.
-/

namespace LoopPainter.Brackets

/-- A text in which every bracket has its partner. -/
inductive Block where
  | done
  | plain (c : Char) (hc : c ≠ '[' ∧ c ≠ ']') (rest : Block)
  | loop (body rest : Block)

namespace Block

/-- The text of a block. -/
def text : Block → List Char
  | done => []
  | plain c _ rest => c :: rest.text
  | loop body rest => '[' :: (body.text ++ ']' :: rest.text)

/-- The length of the text of a block. -/
def length (b : Block) : ℕ :=
  b.text.length

/-- One block behind another. -/
def append : Block → Block → Block
  | done, b => b
  | plain c hc rest, b => plain c hc (rest.append b)
  | loop body rest, b => loop body (rest.append b)

instance : Append Block := ⟨append⟩

@[simp] theorem length_done : done.length = 0 := rfl

@[simp] theorem length_plain (c : Char) (hc : c ≠ '[' ∧ c ≠ ']') (rest : Block) :
    (plain c hc rest).length = rest.length + 1 := rfl

@[simp] theorem length_loop (body rest : Block) :
    (loop body rest).length = body.length + rest.length + 2 := by
  simp only [length, text, List.length_cons, List.length_append]
  omega

theorem length_text (b : Block) : b.text.length = b.length := rfl

@[simp] theorem text_append (a b : Block) : (a ++ b).text = a.text ++ b.text := by
  change (a.append b).text = _
  induction a with
  | done => rfl
  | plain c hc rest ih => simp [append, text, ih]
  | loop body rest _ ih => simp [append, text, ih]

theorem append_done (b : Block) : b ++ done = b := by
  change b.append done = b
  induction b with
  | done => rfl
  | plain c hc rest ih => rw [append, ih]
  | loop body rest _ ih => rw [append, ih]

theorem append_assoc (a b b' : Block) : a ++ b ++ b' = a ++ (b ++ b') := by
  change (a.append b).append b' = a.append (b.append b')
  induction a with
  | done => rfl
  | plain c hc rest ih => simp only [append, ih]
  | loop body rest _ ih => simp only [append, ih]

end Block

/-- Blocks set apart by `[` that are never closed. -/
inductive Outline where
  | last (b : Block)
  | opened (b : Block) (rest : Outline)

/-- The text of an outline. -/
def Outline.text : Outline → List Char
  | last b => b.text
  | opened b rest => b.text ++ '[' :: rest.text

/-- What a whole text is read as. -/
inductive Reading where
  /-- Every `]` has its partner. -/
  | whole (o : Outline)
  /-- The `]` behind the block has none. -/
  | cut (b : Block) (after : List Char)

namespace Reading

/-- The text of a reading. -/
def text : Reading → List Char
  | whole o => o.text
  | cut b after => b.text ++ ']' :: after

/-- Read on behind the block `current`, which stands in the open brackets behind the blocks
`outer`, the innermost first. -/
def scan (outer : List Block) (current : Block) : List Char → Reading
  | [] => whole (outer.foldl (fun o b => .opened b o) (.last current))
  | c :: rest =>
    if hopen : c = '[' then scan (current :: outer) .done rest
    else if hclose : c = ']' then
      match outer with
      | [] => cut current rest
      | b :: outer => scan outer (b ++ .loop current .done) rest
    else scan outer (current ++ .plain c ⟨hopen, hclose⟩ .done) rest

/-- Read a text. -/
def ofText (l : List Char) : Reading :=
  scan [] .done l

theorem scan_open (outer : List Block) (current : Block) (rest : List Char) :
    scan outer current ('[' :: rest) = scan (current :: outer) .done rest := by
  conv_lhs => unfold scan
  rw [dif_pos rfl]

theorem scan_close_nil (current : Block) (rest : List Char) :
    scan [] current (']' :: rest) = cut current rest := by
  unfold scan
  rw [dif_neg (by decide), dif_pos rfl]

theorem scan_close_cons (b : Block) (outer : List Block) (current : Block) (rest : List Char) :
    scan (b :: outer) current (']' :: rest) = scan outer (b ++ .loop current .done) rest := by
  conv_lhs => unfold scan
  rw [dif_neg (by decide), dif_pos rfl]

theorem scan_plain {c : Char} (hc : c ≠ '[' ∧ c ≠ ']') (outer : List Block) (current : Block)
    (rest : List Char) :
    scan outer current (c :: rest) = scan outer (current ++ .plain c hc .done) rest := by
  conv_lhs => unfold scan
  rw [dif_neg hc.1, dif_neg hc.2]

private theorem text_foldl_opened (outer : List Block) (o : Outline) :
    (outer.foldl (fun o b => Outline.opened b o) o).text =
      (outer.reverse.flatMap fun b => b.text ++ ['[']) ++ o.text := by
  induction outer generalizing o with
  | nil => rfl
  | cons b outer ih =>
      rw [List.foldl_cons, ih]
      simp [Outline.text]

private theorem text_scan (outer : List Block) (current : Block) (l : List Char) :
    (scan outer current l).text =
      (outer.reverse.flatMap fun b => b.text ++ ['[']) ++ (current.text ++ l) := by
  induction l generalizing outer current with
  | nil => simp [scan, text, text_foldl_opened, Outline.text]
  | cons c rest ih =>
      by_cases hopen : c = '['
      · rw [hopen, scan_open, ih]
        simp [Block.text]
      by_cases hclose : c = ']'
      · cases outer with
        | nil => simp [hclose, scan_close_nil, text]
        | cons b outer =>
            rw [hclose, scan_close_cons, ih]
            simp [Block.text]
      · rw [scan_plain ⟨hopen, hclose⟩, ih]
        simp [Block.text]

/-- The tree of a text is one of that text. -/
theorem text_ofText (l : List Char) : (ofText l).text = l :=
  text_scan [] .done l

theorem text_of_whole {l : List Char} {o : Outline} (h : ofText l = whole o) : o.text = l := by
  rw [← text_ofText l, h, text]

theorem text_of_cut {l : List Char} {b : Block} {after : List Char} (h : ofText l = cut b after) :
    b.text ++ ']' :: after = l := by
  rw [← text_ofText l, h, text]

private theorem scan_block (b : Block) (outer : List Block) (current : Block) (l : List Char) :
    scan outer current (b.text ++ l) = scan outer (current ++ b) l := by
  induction b generalizing outer current l with
  | done => rw [Block.append_done]; rfl
  | plain c hc rest ih =>
      rw [Block.text, List.cons_append, scan_plain hc, ih, Block.append_assoc]
      rfl
  | loop body rest ihbody ihrest =>
      rw [Block.text, List.cons_append, List.append_assoc, scan_open, ihbody, List.cons_append,
        scan_close_cons, ihrest, Block.append_assoc]
      rfl

private theorem scan_outline (o : Outline) (outer : List Block) :
    scan outer .done o.text = whole (outer.foldl (fun o b => .opened b o) o) := by
  induction o generalizing outer with
  | last b =>
      have h := scan_block b outer .done []
      rw [List.append_nil] at h
      rw [Outline.text, h]
      rfl
  | opened b rest ih =>
      rw [Outline.text, scan_block, scan_open, ih]
      rfl

/-- A text has no other tree than the one it is read as. -/
theorem ofText_text (r : Reading) : ofText r.text = r := by
  cases r with
  | whole o => exact scan_outline o []
  | cut b after =>
      rw [ofText, text, scan_block, scan_close_nil]
      rfl

end Reading

/-! ## Unrolling -/

/-- The characters that do something by themselves. -/
def strokes : List Char :=
  ['C', 'F', 'R', 'S']

/-- The body of every loop written twice, without its brackets. -/
def Block.unroll : Block → List Char
  | done => []
  | plain c _ rest => if c ∈ strokes then c :: rest.unroll else rest.unroll
  | loop body rest => body.unroll ++ body.unroll ++ rest.unroll

/-- The blocks unrolled, without the `[` between them. -/
def Outline.unroll : Outline → List Char
  | last b => b.unroll
  | opened b rest => b.unroll ++ rest.unroll

/-- What is unrolled of a text ends at the first `]` without partner. -/
def Reading.unroll : Reading → List Char
  | whole o => o.unroll
  | cut b _ => b.unroll

/-- The text without loops that does the same as `l`. -/
def unroll (l : List Char) : List Char :=
  (Reading.ofText l).unroll

example : unroll "[C[F]]x[S".toList = "CFFCFFS".toList := by decide

example : unroll "[R]F]S".toList = "RRF".toList := by decide

/-! ## Depth in a tree -/

namespace Block

theorem depth_length (b : Block) : depth b.text b.length = 0 := by
  induction b with
  | done => exact depth_zero
  | plain c hc rest ih => rw [text, length_plain, depth_plain_cons hc, ih]
  | loop body rest ihbody ihrest =>
      have hlen : (loop body rest).length = body.text.length + (rest.length + 1) + 1 := by
        rw [length_loop, length_text]
        omega
      rw [hlen, text, depth_open_cons, Brackets.depth_append_add, length_text, ihbody,
        depth_close_cons, ihrest]
      rfl

/-- The depth inside a block, read in the text that the block begins. -/
theorem depth_append_of_le (b : Block) (after : List Char) {k : ℕ} (hk : k ≤ b.length) :
    depth (b.text ++ after) k = depth b.text k :=
  Brackets.depth_append_of_le hk

/-- Behind a block the depth goes on as if the block were not there. -/
theorem depth_append_add (b : Block) (after : List Char) (k : ℕ) :
    depth (b.text ++ after) (b.length + k) = depth after k := by
  have h := Brackets.depth_append_add b.text after k
  rw [length_text, depth_length, Int.zero_add] at h
  exact h

/-- A block closes no bracket in front of it. -/
theorem depth_nonneg (b : Block) : ∀ k ≤ b.length, 0 ≤ depth b.text k := by
  induction b with
  | done =>
      intro k hk
      obtain rfl : k = 0 := Nat.le_zero.mp hk
      simp
  | plain c hc rest ih =>
      rintro (_ | k) hk
      · simp
      · rw [text, depth_plain_cons hc]
        exact ih k (by simpa using hk)
  | loop body rest ihbody ihrest =>
      rintro (_ | k) hk
      · simp
      · rw [text, depth_open_cons]
        rw [length_loop] at hk
        rcases Nat.lt_or_ge body.length k with hlt | hge
        · obtain ⟨j, rfl⟩ : ∃ j, k = body.length + (j + 1) := ⟨k - body.length - 1, by omega⟩
          rw [depth_append_add, depth_close_cons]
          have := ihrest j (by omega)
          omega
        · rw [depth_append_of_le _ _ hge]
          have := ihbody k hge
          omega

end Block

/-- An outline closes no bracket in front of it. -/
theorem Outline.depth_nonneg (o : Outline) : ∀ k ≤ o.text.length, 0 ≤ depth o.text k := by
  induction o with
  | last b => exact b.depth_nonneg
  | opened b rest ih =>
      intro k hk
      rw [text, List.length_append, List.length_cons, b.length_text] at hk
      rcases Nat.lt_or_ge b.length k with hlt | hge
      · obtain ⟨j, rfl⟩ : ∃ j, k = b.length + (j + 1) := ⟨k - b.length - 1, by omega⟩
        rw [text, b.depth_append_add, depth_open_cons]
        have := ih j (by omega)
        omega
      · rw [text, b.depth_append_of_le _ hge]
        exact b.depth_nonneg k hge

/-- A text that is read to its end has no `]` without partner. -/
theorem cutoff_of_whole {l : List Char} {o : Outline} (h : Reading.ofText l = .whole o) :
    cutoff l = l.length := by
  obtain rfl := Reading.text_of_whole h
  exact cutoff_eq_length o.depth_nonneg

/-- The depth of a text that is cut becomes negative right behind the block. -/
theorem depth_of_cut {l : List Char} {b : Block} {after : List Char}
    (h : Reading.ofText l = .cut b after) :
    depth l (b.length + 1) < 0 ∧ ∀ k ≤ b.length, 0 ≤ depth l k := by
  obtain rfl := Reading.text_of_cut h
  constructor
  · rw [b.depth_append_add, depth_close_cons, depth_zero]
    omega
  · intro k hk
    rw [b.depth_append_of_le _ hk]
    exact b.depth_nonneg k hk

/-- A text that is cut has its first `]` without partner behind the block. -/
theorem cutoff_of_cut {l : List Char} {b : Block} {after : List Char}
    (h : Reading.ofText l = .cut b after) : cutoff l = b.length := by
  obtain ⟨hneg, hbefore⟩ := depth_of_cut h
  obtain ⟨hstray, hfirst⟩ := isStray_of_neg hneg hbefore
  exact cutoff_eq_of_isStray hstray hfirst

/-- Behind the cut of a text its depth is negative for the first time. -/
theorem depth_cutoff {l : List Char} (h : cutoff l < l.length) :
    depth l (cutoff l + 1) < 0 ∧ ∀ k ≤ cutoff l, 0 ≤ depth l k := by
  cases hread : Reading.ofText l with
  | whole r => exact absurd (cutoff_of_whole hread) (Nat.ne_of_lt h)
  | cut b after =>
      rw [cutoff_of_cut hread]
      exact depth_of_cut hread

theorem cutoff_lt_length_iff {l : List Char} :
    cutoff l < l.length ↔ ∃ k ≤ l.length, depth l k < 0 := by
  constructor
  · exact fun h => ⟨cutoff l + 1, h, (depth_cutoff h).1⟩
  · rintro ⟨k, hk, hneg⟩
    cases hread : Reading.ofText l with
    | whole r =>
        obtain rfl := Reading.text_of_whole hread
        have := r.depth_nonneg k hk
        omega
    | cut b after =>
        rw [cutoff_of_cut hread, ← Reading.text_of_cut hread, List.length_append,
          List.length_cons, b.length_text]
        omega

/-! ## Balanced texts -/

/-- Every bracket has its partner: no prefix closes more than it opens, and the whole closes all
that it opens. -/
def Balanced (l : List Char) : Prop :=
  (∀ k ≤ l.length, 0 ≤ depth l k) ∧ depth l l.length = 0

instance (l : List Char) : Decidable (Balanced l) :=
  inferInstanceAs (Decidable (_ ∧ _))

/-- A `[` that is never closed keeps the depth up to the end. -/
theorem Outline.depth_opened_pos (b : Block) (rest : Outline) :
    0 < depth (opened b rest).text (opened b rest).text.length := by
  have hlen : (opened b rest).text.length = b.length + (rest.text.length + 1) := by
    rw [text, List.length_append, List.length_cons, b.length_text]
  rw [hlen, text, b.depth_append_add, depth_open_cons]
  have := rest.depth_nonneg rest.text.length le_rfl
  omega

theorem Balanced.exists_block {l : List Char} (h : Balanced l) : ∃ b : Block, b.text = l := by
  obtain ⟨hdepth, hlevel⟩ := h
  cases hread : Reading.ofText l with
  | cut b after =>
      have hle : b.length + 1 ≤ l.length := by
        rw [← Reading.text_of_cut hread, List.length_append, List.length_cons, b.length_text]
        omega
      have := (depth_of_cut hread).1
      have := hdepth _ hle
      omega
  | whole o =>
      obtain rfl := Reading.text_of_whole hread
      cases o with
      | last b => exact ⟨b, rfl⟩
      | opened b rest =>
          have := Outline.depth_opened_pos b rest
          omega

theorem unroll_text (b : Block) : unroll b.text = b.unroll := by
  have hread : Reading.ofText b.text = .whole (.last b) := Reading.ofText_text (.whole (.last b))
  rw [unroll, hread]
  rfl

end LoopPainter.Brackets
