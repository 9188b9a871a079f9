import LoopPainter.Proofs.Yaml.Lexing

/-!
# Block mappings and lists as a lexer reads them

The tokens of what is written behind the colon of a key (`Lexes`), of the items of a list
(`LexesItems`) and of the pairs of a mapping (`LexesPairs`), put together from those of the parts.
Each of them is followed by a line that is not indented deeper.
-/

namespace LoopPainter.Yaml.Lexer

open Cursor

variable {l : Lexer} {key out rest tail text vout : List Char} {T toks vtoks : List Token}
  {column m n : ℕ} {indent : ℤ} {outer : List ℤ} {plain : Bool}

/-- What is written behind the colon of a key at a column. -/
structure Lexes (n : ℕ) (out : List Char) (toks : List Token) : Prop where
  head : isGap (out.headD '\x00') = true
  leads : ∀ (l : Lexer) (T : List Token) (outer : List ℤ) (m : ℕ) (tail : List Char),
    Stands l (out ++ (lineAt m ++ tail)) T n outer → n < l.cursor.column → m ≤ n → Resumes tail →
      ∃ l', Leads l l' ∧ Poised l' tail m (T ++ toks) n outer

/-- The items of a list at the column of its key, from the first hyphen on. -/
structure LexesItems (n : ℕ) (out : List Char) (toks : List Token) : Prop where
  head : ∃ rest, out = '-' :: ' ' :: rest
  leads : ∀ (l : Lexer) (T : List Token) (outer : List ℤ) (m : ℕ) (tail : List Char),
    Poised l (out ++ (lineAt m ++ tail)) n T n outer → m ≤ n → Resumes tail →
      ∃ l', Leads l l' ∧ Poised l' tail m (T ++ toks) n outer

/-- The pairs of a mapping at a column, from the first key on. -/
structure LexesPairs (n : ℕ) (out : List Char) (toks : List Token) : Prop where
  head : ∃ key rest, Label key ∧ out = key ++ rest
  leads : ∀ (l : Lexer) (T : List Token) (indent : ℤ) (outer : List ℤ) (m : ℕ) (tail : List Char),
    Poised l (out ++ (lineAt m ++ tail)) n T indent outer → indent ≤ n → m ≤ n → Resumes tail →
      ∃ l', Leads l l' ∧
        Poised l' tail m (T ++ (opening indent n ++ toks)) n (outerOf indent n outer)

/-! ## Scalars and lists -/

theorem lexes_scalar (h : Scribed column plain text out) (hn : n < column) :
    Lexes n (' ' :: out) [.scalar (String.ofList text) plain] :=
  ⟨rfl, fun _ _ _ _ _ hl hcolumn hm htail => h.exists_leads hl hcolumn hn hm htail⟩

theorem Scribed.exists_item (h : Scribed column plain text out) (hn : n < column)
    (hl : Poised l ('-' :: ' ' :: (out ++ (lineAt m ++ tail))) n T n outer) (hm : m ≤ n)
    (htail : Resumes tail) :
    ∃ l', Leads l l' ∧
      Poised l' tail m (T ++ [.blockEntry, .scalar (String.ofList text) plain]) n outer := by
  obtain ⟨l₁, hleads, hcolumn, hstands⟩ := hl.exists_entry
  obtain ⟨l₂, hleads', hpoised⟩ := h.exists_leads hstands hcolumn hn hm htail
  exact ⟨l₂, hleads.trans hleads', by simpa using hpoised⟩

theorem lexesItems_one (h : Scribed column plain text out) (hn : n < column) :
    LexesItems n ('-' :: ' ' :: out) [.blockEntry, .scalar (String.ofList text) plain] :=
  ⟨⟨out, rfl⟩, fun _ _ _ _ _ hl hm htail => h.exists_item hn hl hm htail⟩

theorem LexesItems.cons (hrest : LexesItems n rest toks) (h : Scribed column plain text out)
    (hn : n < column) :
    LexesItems n ('-' :: ' ' :: (out ++ (lineAt n ++ rest)))
      (.blockEntry :: .scalar (String.ofList text) plain :: toks) := by
  refine ⟨⟨_, rfl⟩, fun l T outer m tail hl hm htail => ?_⟩
  obtain ⟨rest', rfl⟩ := hrest.head
  simp only [List.cons_append, List.append_assoc] at hl
  obtain ⟨l₁, hleads, hpoised⟩ := h.exists_item hn hl (Nat.le_refl n) (resumes_entry _)
  obtain ⟨l₂, hleads', hpoised'⟩ := hrest.leads l₁ _ outer m tail hpoised hm htail
  exact ⟨l₂, hleads.trans hleads', by simpa using hpoised'⟩

theorem LexesItems.lexes (h : LexesItems n out toks) : Lexes n (lineAt n ++ out) toks := by
  refine ⟨rfl, fun l T outer m tail hl _ hm htail => ?_⟩
  obtain ⟨rest, rfl⟩ := h.head
  rw [List.append_assoc] at hl
  exact h.leads l T outer m tail (hl.poised_lineAt (resumes_entry _)) hm htail

/-! ## Mappings -/

theorem Lexes.exists_pair (h : Lexes n out toks) (hkey : Label key)
    (hl : Poised l (key ++ ':' :: (out ++ (lineAt m ++ tail))) n T indent outer)
    (hindent : indent ≤ n) (hm : m ≤ n) (htail : Resumes tail) :
    ∃ l', Leads l l' ∧
      Poised l' tail m (T ++ (opening indent n ++
        (.key :: .scalar (String.ofList key) true :: .value :: toks))) n
        (outerOf indent n outer) := by
  have hgap : isGap ((out ++ (lineAt m ++ tail)).headD '\x00') = true := by
    cases hout : out with
    | nil => rfl
    | cons ch out =>
        have := h.head
        rwa [hout] at this
  obtain ⟨l₁, hleads, hcolumn, hstands⟩ := hl.exists_key hkey hindent hgap
  obtain ⟨l₂, hleads', hpoised⟩ := h.leads l₁ _ _ m tail hstands hcolumn hm htail
  exact ⟨l₂, hleads.trans hleads', by simpa using hpoised⟩

theorem lexesPairs_one (hkey : Label key) (h : Lexes n out toks) :
    LexesPairs n (key ++ ':' :: out)
      (.key :: .scalar (String.ofList key) true :: .value :: toks) := by
  refine ⟨⟨key, _, hkey, rfl⟩, fun l T indent outer m tail hl hindent hm htail => ?_⟩
  rw [List.append_assoc, List.cons_append] at hl
  exact h.exists_pair hkey hl hindent hm htail

theorem LexesPairs.cons (hrest : LexesPairs n rest toks) (hkey : Label key)
    (h : Lexes n vout vtoks) :
    LexesPairs n (key ++ ':' :: (vout ++ (lineAt n ++ rest)))
      (.key :: .scalar (String.ofList key) true :: .value :: (vtoks ++ toks)) := by
  refine ⟨⟨key, _, hkey, rfl⟩, fun l T indent outer m tail hl hindent hm htail => ?_⟩
  obtain ⟨key', rest', hkey', rfl⟩ := hrest.head
  simp only [List.append_assoc, List.cons_append] at hl
  obtain ⟨l₁, hleads, hpoised⟩ := h.exists_pair hkey hl hindent (Nat.le_refl n) (hkey'.resumes _)
  obtain ⟨l₂, hleads', hpoised'⟩ :=
    hrest.leads l₁ _ n _ m tail (by simpa using hpoised) (Int.le_refl _) hm htail
  refine ⟨l₂, hleads.trans hleads', ?_⟩
  simpa [opening, outerOf] using hpoised'

/-- A mapping behind a key is two columns deeper than the key. -/
theorem LexesPairs.lexes (h : LexesPairs (n + 2) out toks) :
    Lexes n (lineAt (n + 2) ++ out) (.blockMappingStart :: (toks ++ [.blockEnd])) := by
  refine ⟨rfl, fun l T outer m tail hl _ hm htail => ?_⟩
  obtain ⟨key, rest, hkey, rfl⟩ := h.head
  rw [List.append_assoc] at hl
  have hpoised := hl.poised_lineAt (by rw [List.append_assoc]; exact hkey.resumes _)
  obtain ⟨l', hleads, hpoised'⟩ := h.leads l T n outer m tail hpoised (by omega) (by omega) htail
  have hdeeper : (n : ℤ) < ((n + 2 : ℕ) : ℤ) := by omega
  rw [outerOf, if_pos hdeeper] at hpoised'
  have hclosed := hpoised'.close (by omega)
  rw [opening, if_pos hdeeper] at hclosed
  exact ⟨l', hleads, by simpa using hclosed⟩

/-- The tokens of a text that is a mapping. -/
theorem LexesPairs.tokens_eq (h : LexesPairs 0 out toks) :
    Yaml.tokens (out ++ ['\n']) = .blockMappingStart :: (toks ++ [.blockEnd, .streamEnd]) := by
  obtain ⟨key, rest, hkey, hout⟩ := h.head
  let c : Cursor := { rest := out ++ ['\n'] }
  have hpeek : (c.peek == '\ufeff') = false := by
    obtain ⟨ch, key', rfl, -⟩ := hkey.word.exists_cons
    rw [beq_eq_false_iff_ne, peek_of_rest (c := c) (congrArg (· ++ ['\n']) hout)]
    exact hkey.ne List.mem_cons_self (by decide)
  have hstands : Stands { cursor := c } (out ++ (lineAt 0 ++ [])) [] (-1) [] :=
    ⟨rfl, rfl, rfl, rfl, rfl, nofun⟩
  have hpoised : Poised { cursor := c } (out ++ (lineAt 0 ++ [])) 0 [] (-1) [] :=
    hstands.poised_here (by rw [hout, List.append_assoc]; exact hkey.resumes _) rfl rfl
  obtain ⟨l, ⟨k, hk, hrun⟩, hend⟩ :=
    h.leads _ _ _ _ 0 [] hpoised (by decide) (Nat.le_refl 0) resumes_nil
  have hfuel : c.fuel + 1 = (c.rest.length + 1 - k + 1) + k := by
    have : k ≤ c.rest.length := Nat.le_trans (Nat.le_add_right k _) hk
    rw [fuel]
    omega
  have hif : (if c.peek == '\ufeff' then c.next else c) = c := by rw [hpeek]; rfl
  rw [Yaml.tokens]
  rw [hif, hfuel, hrun, hend.run_eq]
  simp [opening]

end LoopPainter.Yaml.Lexer
