import LoopPainter.Proofs.Brackets.Outline
import Mathlib.Data.Finset.Prod

/-!
# The loops of the tree are the pairs of partners

`Block.pairs` lists the two positions of every loop of a block that stands at a
given position.  For a text that is read into a tree, this list holds exactly the
pairs of partners, up to the first `]` without partner (`mem_pairs_ofText_iff`), and
each of them once (`pairs_pairwise`).

`enclosing l x` is the number of pairs of partners around the position `x`.  It does
not mention the tree; `enclosing_eq` counts the same in the list.
-/

namespace LoopPainter.Brackets

variable {l : List Char} {o c i : ℕ}

/-- The brackets of the loops of a block that stands at position `i`. -/
def Block.pairs : Block → ℕ → List (ℕ × ℕ)
  | done, _ => []
  | plain _ _ rest, i => rest.pairs (i + 1)
  | loop body rest, i =>
    (i, i + 1 + body.length) :: (body.pairs (i + 1) ++ rest.pairs (i + 1 + body.length + 1))

/-- The brackets of the loops of an outline that stands at position `i`. -/
def Outline.pairs : Outline → ℕ → List (ℕ × ℕ)
  | last b, i => b.pairs i
  | opened b rest, i => b.pairs i ++ rest.pairs (i + b.length + 1)

/-- The brackets of the loops of a text. -/
def Reading.pairs : Reading → List (ℕ × ℕ)
  | whole o => o.pairs 0
  | cut b _ => b.pairs 0

theorem Block.bounds_of_mem_pairs (b : Block) (h : (o, c) ∈ b.pairs i) :
    i ≤ o ∧ o < c ∧ c < i + b.length := by
  induction b generalizing i with
  | done => simp [pairs] at h
  | plain x hx rest ih =>
      have := ih (i := i + 1) h
      simp only [length_plain]
      omega
  | loop body rest ihbody ihrest =>
      simp only [pairs, List.mem_cons, List.mem_append, Prod.mk.injEq] at h
      simp only [length_loop]
      rcases h with ⟨rfl, rfl⟩ | hbody | hrest
      · omega
      · have := ihbody hbody
        omega
      · have := ihrest hrest
        omega

theorem Outline.le_of_mem_pairs (r : Outline) (h : (o, c) ∈ r.pairs i) : i ≤ o := by
  induction r generalizing i with
  | last b => exact (b.bounds_of_mem_pairs h).1
  | opened b rest ih =>
      simp only [pairs, List.mem_append] at h
      rcases h with hb | hrest
      · exact (b.bounds_of_mem_pairs hb).1
      · have := ih hrest
        omega

/-- The loops are listed in the order of their `[`. -/
theorem Block.pairs_pairwise (b : Block) (i : ℕ) :
    (b.pairs i).Pairwise fun x y => x.1 < y.1 := by
  induction b generalizing i with
  | done => exact List.Pairwise.nil
  | plain x hx rest ih => exact ih (i + 1)
  | loop body rest ihbody ihrest =>
      refine List.pairwise_cons.mpr ⟨?_, List.pairwise_append.mpr ⟨ihbody _, ihrest _, ?_⟩⟩
      · rintro ⟨o, c⟩ h
        rcases List.mem_append.mp h with hbody | hrest
        · exact (body.bounds_of_mem_pairs hbody).1
        · have := (rest.bounds_of_mem_pairs hrest).1
          change i < o
          omega
      · rintro ⟨o, c⟩ hbody ⟨o', c'⟩ hrest
        have := body.bounds_of_mem_pairs hbody
        have := rest.bounds_of_mem_pairs hrest
        change o < o'
        omega

theorem Outline.pairs_pairwise (r : Outline) (i : ℕ) :
    (r.pairs i).Pairwise fun x y => x.1 < y.1 := by
  induction r generalizing i with
  | last b => exact b.pairs_pairwise i
  | opened b rest ih =>
      refine List.pairwise_append.mpr ⟨b.pairs_pairwise i, ih _, ?_⟩
      rintro ⟨o, c⟩ hb ⟨o', c'⟩ hrest
      have := b.bounds_of_mem_pairs hb
      have := rest.le_of_mem_pairs hrest
      change o < o'
      omega

theorem Reading.pairs_nodup (r : Reading) : r.pairs.Nodup := by
  have hne : ∀ {x y : ℕ × ℕ}, x.1 < y.1 → x ≠ y := fun hlt heq => by simp [heq] at hlt
  cases r with
  | whole o => exact (o.pairs_pairwise 0).imp hne
  | cut b _ => exact (b.pairs_pairwise 0).imp hne

/-! ## Every loop is a pair of partners -/

theorem partner_around (before : List Char) (body : Block) (after : List Char) :
    Partner (before ++ '[' :: (body.text ++ ']' :: after)) before.length
      (before.length + 1 + body.length) := by
  -- inside the loop the depth is that of the body, one above the depth at the `[`
  have hinside : ∀ k ≤ body.length,
      depth (before ++ '[' :: (body.text ++ ']' :: after)) (before.length + (k + 1)) =
        depth before before.length + 1 + depth body.text k := by
    intro k hk
    rw [depth_append_add, depth_open_cons, body.depth_append_of_le _ hk]
    omega
  have hopening : depth (before ++ '[' :: (body.text ++ ']' :: after)) before.length =
      depth before before.length := depth_append_of_le le_rfl
  refine ⟨?_, ?_, by omega, fun k hk hlt => ?_, ?_⟩
  · simp
  · rw [Nat.add_assoc, Nat.add_comm 1, List.getElem?_append_right (by omega)]
    simp [← body.length_text]
  · obtain ⟨j, rfl⟩ : ∃ j, k = before.length + (j + 1) := ⟨k - before.length - 1, by omega⟩
    rw [hinside j (by omega), hopening]
    have := body.depth_nonneg j (by omega)
    omega
  · have hend : before.length + 1 + body.length + 1 =
        before.length + (body.length + (0 + 1) + 1) := by omega
    rw [hend, depth_append_add, depth_open_cons, body.depth_append_add, depth_close_cons, hopening,
      depth_zero]
    omega

theorem Block.partner_of_mem_pairs (b : Block) (before after : List Char)
    (h : (o, c) ∈ b.pairs before.length) : Partner (before ++ (b.text ++ after)) o c := by
  induction b generalizing before after with
  | done => simp [pairs] at h
  | plain x hx rest ih =>
      have := ih (before ++ [x]) after (by simpa [pairs] using h)
      simpa [text] using this
  | loop body rest ihbody ihrest =>
      simp only [pairs, List.mem_cons, List.mem_append, Prod.mk.injEq] at h
      rcases h with ⟨rfl, rfl⟩ | hbody | hrest
      · simpa [text] using partner_around before body (rest.text ++ after)
      · have := ihbody (before ++ ['[']) (']' :: (rest.text ++ after))
          (by simpa using hbody)
        simpa [text] using this
      · have := ihrest (before ++ '[' :: (body.text ++ [']'])) after
          (by simpa [body.length_text, Nat.add_assoc, Nat.add_comm, Nat.add_left_comm] using hrest)
        simpa [text] using this

theorem Outline.partner_of_mem_pairs (r : Outline) (before : List Char)
    (h : (o, c) ∈ r.pairs before.length) : Partner (before ++ r.text) o c := by
  induction r generalizing before with
  | last b => simpa [text] using b.partner_of_mem_pairs before [] h
  | opened b rest ih =>
      simp only [pairs, List.mem_append] at h
      rcases h with hb | hrest
      · exact b.partner_of_mem_pairs before _ hb
      · have := ih (before ++ (b.text ++ ['[']))
          (by simpa [b.length_text, Nat.add_assoc] using hrest)
        simpa [text] using this

/-! ## Every pair of partners is a loop -/

/-- A `[` inside a block is the `[` of a loop. -/
theorem Block.exists_mem_pairs (b : Block) {k : ℕ} (h : b.text[k]? = some '[') :
    ∃ c, (i + k, c) ∈ b.pairs i := by
  induction b generalizing i k with
  | done => simp [text] at h
  | plain x hx rest ih =>
      cases k with
      | zero => exact absurd (by simpa [text] using h) hx.1
      | succ k =>
          obtain ⟨c, hc⟩ := ih (i := i + 1) (k := k) (by simpa [text] using h)
          exact ⟨c, by rwa [pairs, show i + (k + 1) = i + 1 + k by omega]⟩
  | loop body rest ihbody ihrest =>
      simp only [pairs, List.mem_cons, List.mem_append]
      cases k with
      | zero => exact ⟨_, .inl rfl⟩
      | succ k =>
          rw [text, List.getElem?_cons_succ] at h
          rcases Nat.lt_or_ge k body.length with hlt | hge
          · rw [List.getElem?_append_left (by rwa [body.length_text])] at h
            obtain ⟨c, hc⟩ := ihbody (i := i + 1) h
            exact ⟨c, .inr (.inl (by rwa [show i + (k + 1) = i + 1 + k by omega]))⟩
          · rw [List.getElem?_append_right (by rwa [body.length_text]), body.length_text] at h
            obtain ⟨j, rfl⟩ : ∃ j, k = body.length + j := ⟨k - body.length, by omega⟩
            rw [Nat.add_sub_cancel_left] at h
            cases j with
            | zero => simp at h
            | succ j =>
                obtain ⟨c, hc⟩ := ihrest (i := i + 1 + body.length + 1) (k := j) (by simpa using h)
                refine ⟨c, .inr (.inr ?_)⟩
                rwa [show i + (body.length + (j + 1) + 1) = i + 1 + body.length + 1 + j by omega]

/-- The depth never comes back to the level of a `[` between two blocks of an outline. -/
theorem not_partner_opened (before : List Char) (b : Block) (rest : Outline) :
    ¬ Partner (before ++ (b.text ++ '[' :: rest.text)) (before.length + b.length) c := by
  intro h
  have hlt := h.lt
  have hlen := h.close_lt_length
  simp only [List.length_append, List.length_cons, b.length_text] at hlen
  obtain ⟨j, rfl⟩ : ∃ j, c = before.length + (b.length + j) :=
    ⟨c - before.length - b.length, by omega⟩
  -- everything behind the `[` is at its level at least, and the `[` itself is never given back
  have hlevel := h.level
  rw [Nat.add_assoc, Nat.add_assoc, depth_append_add, b.depth_append_add, depth_open_cons,
    depth_append_add, b.depth_append_of_le _ le_rfl, b.depth_length] at hlevel
  have := rest.depth_nonneg j (by omega)
  omega

/-- A `[` of an outline that has a partner is the `[` of a loop. -/
theorem Outline.exists_mem_pairs (r : Outline) (before : List Char)
    (hlt : before.length ≤ o) (h : Partner (before ++ r.text) o c) :
    ∃ c', (o, c') ∈ r.pairs before.length := by
  induction r generalizing before with
  | last b =>
      have hopen := h.opening
      rw [List.getElem?_append_right hlt] at hopen
      obtain ⟨c', hc'⟩ := b.exists_mem_pairs (i := before.length) hopen
      exact ⟨c', by rwa [Nat.add_sub_of_le hlt] at hc'⟩
  | opened b rest ih =>
      obtain ⟨k, rfl⟩ : ∃ k, o = before.length + k := ⟨o - before.length, by omega⟩
      have hopen := h.opening
      rw [List.getElem?_append_right hlt, Nat.add_sub_cancel_left, text] at hopen
      simp only [pairs, List.mem_append]
      -- in the block, at the `[` behind it, or in what comes after
      rcases Nat.lt_trichotomy k b.length with hk | rfl | hk
      · rw [List.getElem?_append_left (by rwa [b.length_text])] at hopen
        obtain ⟨c', hc'⟩ := b.exists_mem_pairs (i := before.length) hopen
        exact ⟨c', .inl hc'⟩
      · exact absurd h (not_partner_opened before b rest)
      · obtain ⟨c', hc'⟩ := ih (before ++ (b.text ++ ['[']))
          (by simp [b.length_text]; omega) (by simpa [text] using h)
        exact ⟨c', .inr (by simpa [b.length_text, Nat.add_assoc] using hc')⟩

/-- The loops of the tree of a text are the pairs of partners that open before the cut. -/
theorem mem_pairs_ofText_iff : (o, c) ∈ (Reading.ofText l).pairs ↔ Partner l o c ∧ o < cutoff l := by
  cases hread : Reading.ofText l with
  -- without a stray `]` nothing is cut off, and every partner is before the end
  | whole r =>
      have htext := Reading.text_of_whole hread
      rw [cutoff_of_whole hread, Reading.pairs]
      constructor
      · intro h
        have hpartner := r.partner_of_mem_pairs [] h
        rw [List.nil_append, htext] at hpartner
        have := hpartner.lt
        have := hpartner.close_lt_length
        exact ⟨hpartner, by omega⟩
      · rintro ⟨hpartner, -⟩
        obtain ⟨c', hc'⟩ := r.exists_mem_pairs [] (Nat.zero_le o) (by simpa [htext])
        have hpartner' := r.partner_of_mem_pairs [] hc'
        rw [List.nil_append, htext] at hpartner'
        rwa [hpartner.close_unique hpartner']
  | cut b after =>
      have htext := Reading.text_of_cut hread
      rw [cutoff_of_cut hread, Reading.pairs]
      constructor
      · intro h
        have hpartner := b.partner_of_mem_pairs [] (']' :: after) h
        rw [List.nil_append, htext] at hpartner
        have := b.bounds_of_mem_pairs h
        exact ⟨hpartner, by omega⟩
      · rintro ⟨hpartner, hlt⟩
        have hopen := hpartner.opening
        rw [← htext, List.getElem?_append_left (by rwa [b.length_text])] at hopen
        obtain ⟨c', hc'⟩ := b.exists_mem_pairs (i := 0) hopen
        rw [Nat.zero_add] at hc'
        have hpartner' := b.partner_of_mem_pairs [] (']' :: after) hc'
        rw [List.nil_append, htext] at hpartner'
        rwa [hpartner.close_unique hpartner']

/-! ## Nesting -/

/-- The pair `oc` encloses the position `x`, its `]` included. -/
def Around (x : ℕ) (oc : ℕ × ℕ) : Prop :=
  oc.1 < x ∧ x ≤ oc.2

instance (x : ℕ) : DecidablePred (Around x) :=
  fun oc => inferInstanceAs (Decidable (oc.1 < x ∧ x ≤ oc.2))

/-- The number of pairs of partners around a position. -/
def enclosing (l : List Char) (x : ℕ) : ℕ :=
  ((Finset.range l.length ×ˢ Finset.range l.length).filter fun oc =>
    Partner l oc.1 oc.2 ∧ Around x oc).card

/-- Around a position that is not behind the cut, the pairs of partners are loops of the tree. -/
theorem enclosing_eq {x : ℕ} (hx : x ≤ cutoff l) :
    enclosing l x = (Reading.ofText l).pairs.countP fun oc => decide (Around x oc) := by
  have hnodup := (Reading.ofText l).pairs_nodup.filter fun oc => decide (Around x oc)
  rw [List.countP_eq_length_filter, ← List.toFinset_card_of_nodup hnodup, enclosing]
  congr 1
  ext ⟨o, c⟩
  simp only [Finset.mem_filter, Finset.mem_product, Finset.mem_range, List.mem_toFinset,
    List.mem_filter, decide_eq_true_eq, mem_pairs_ofText_iff]
  constructor
  · rintro ⟨-, hpartner, haround⟩
    exact ⟨⟨hpartner, Nat.lt_of_lt_of_le haround.1 hx⟩, haround⟩
  · rintro ⟨⟨hpartner, -⟩, haround⟩
    have := hpartner.lt
    have := hpartner.close_lt_length
    exact ⟨⟨by omega, by omega⟩, hpartner, haround⟩

example : enclosing "[F[C]]".toList 3 = 2 := by decide

end LoopPainter.Brackets
