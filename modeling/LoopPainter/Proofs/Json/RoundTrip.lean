import LoopPainter.Json.Parser
import LoopPainter.Json.Printer
import LoopPainter.Proofs.Text.Digits
import Mathlib.Data.List.Basic

/-!
# Reading back what was written as JSON

A text is written character by character, and each is read back with one unit of fuel, whatever
follows it (`textBody?_escapeChar`).  So texts and natural numbers are read back, and mappings that
hold nothing else under different text keys (`parse_print_map`).  All that is written of them is
printable (`isPrintable_of_mem_print_map`).
-/

namespace LoopPainter.Json

variable {c : Char} {n fuel : ℕ} {s done rest : List Char}

/-- A printable ASCII character. -/
def isPrintable (c : Char) : Bool :=
  ' ' ≤ c && c ≤ '~'

/-! ## Units -/

theorem isHexDigit_digitChar : ∀ d < 16, Text.isHexDigit (Text.digitChar d) = true := by
  decide

theorem isPrintable_digitChar : ∀ d < 16, isPrintable (Text.digitChar d) = true := by
  decide

theorem unit?_of_length {digits : List Char} (hlength : digits.length = 4)
    (hdigits : digits.all Text.isHexDigit = true) (rest : List Char) :
    unit? (digits ++ rest) = some (Text.ofDigits 16 digits, rest) := by
  obtain ⟨a, b, d, e, rfl⟩ : ∃ a b d e, digits = [a, b, d, e] := by
    obtain ⟨a, digits, rfl⟩ := List.exists_cons_of_length_eq_add_one hlength
    obtain ⟨b, d, e, rfl⟩ := List.length_eq_three.mp (Nat.succ.inj hlength)
    exact ⟨a, b, d, e, rfl⟩
  exact if_pos hdigits

theorem unit?_padded (hn : n < 0x10000) (rest : List Char) :
    unit? (Text.padded 16 4 n ++ rest) = some (n, rest) := by
  have hdigits : (Text.padded 16 4 n).all Text.isHexDigit = true := by
    rw [List.all_eq_true]
    intro d hd
    obtain ⟨v, hv, rfl⟩ := Text.mem_padded (by decide) hd
    exact isHexDigit_digitChar v hv
  rw [unit?_of_length (Text.length_padded (by decide) hn) hdigits,
    Text.ofDigits_padded (by decide) (by decide)]

/-- A character of the basic plane is read from one unit. -/
theorem unitEscape?_small (hc : c.toNat < 0x10000) (rest : List Char) :
    unitEscape? (Text.padded 16 4 c.toNat ++ rest) = some (c, rest) := by
  have hvalid : c.toNat < 0xd800 ∨ 0xdfff < c.toNat ∧ c.toNat < 0x110000 := c.valid
  rw [unitEscape?, unit?_padded hc]
  dsimp only [Option.bind_eq_bind, Option.bind_some]
  rw [if_neg (by omega), if_neg (by omega), Char.ofNat_toNat]

theorem unitEscape?_pair {high low : ℕ} (hhigh : 0xd800 ≤ high ∧ high < 0xdc00)
    (hlow : 0xdc00 ≤ low ∧ low < 0xe000) (rest : List Char) :
    unitEscape? (Text.padded 16 4 high ++ (unitEscape low ++ rest)) =
      some (Char.ofNat (0x10000 + (high - 0xd800) * 0x400 + (low - 0xdc00)), rest) := by
  rw [unitEscape?, unit?_padded (by omega)]
  dsimp only [Option.bind_eq_bind, Option.bind_some]
  rw [if_pos hhigh, unitEscape, List.cons_append, List.cons_append]
  simp only [after?, beq_self_eq_true, if_true, Option.bind_some]
  rw [unit?_padded (by omega)]
  exact if_pos hlow

/-- A character beyond it is read from two. -/
theorem unitEscape?_large (hc : 0x10000 ≤ c.toNat) (rest : List Char) :
    unitEscape? (Text.padded 16 4 (0xd800 + (c.toNat - 0x10000) / 0x400) ++
      (unitEscape (0xdc00 + (c.toNat - 0x10000) % 0x400) ++ rest)) = some (c, rest) := by
  have hvalid : c.toNat < 0xd800 ∨ 0xdfff < c.toNat ∧ c.toNat < 0x110000 := c.valid
  rw [unitEscape?_pair (by omega) (by omega), Nat.add_sub_cancel_left, Nat.add_sub_cancel_left,
    Nat.add_assoc, Nat.div_add_mod', Nat.add_sub_cancel' hc, Char.ofNat_toNat]

/-! ## Texts -/

theorem textBody?_ordinary (hquote : c ≠ '"') (hslash : c ≠ '\\') (hlow : 0x20 ≤ c.toNat)
    (fuel : ℕ) (done rest : List Char) :
    textBody? (fuel + 1) done (c :: rest) = textBody? fuel (c :: done) rest := by
  have hkeep : (decide (c.toNat < 0x20) || c == '\\') = false := by
    simp [hslash, hlow]
  rw [textBody?]
  · simp [hkeep]
  · exact fun h => hquote h
  · exact fun _ h _ => hslash h
  · exact fun _ _ h _ => hslash h

/-- A written character is read back, whatever follows it. -/
theorem textBody?_escapeChar (c : Char) (fuel : ℕ) (done rest : List Char) :
    textBody? (fuel + 1) done (escapeChar c ++ rest) = textBody? fuel (c :: done) rest := by
  unfold escapeChar
  split
  · next hmark =>
      rcases (show c = '"' ∨ c = '\\' by simpa using hmark) with rfl | rfl
      · rfl
      · rfl
  · next hmark =>
      have hmarks : c ≠ '"' ∧ c ≠ '\\' := by simpa using hmark
      -- the characters that are written as a letter
      iterate 5
        split
        · next hletter =>
            rw [beq_iff_eq] at hletter
            subst hletter
            rfl
      split
      · next hprintable =>
          have hle : ' ' ≤ c ∧ c ≤ '~' := by simpa using hprintable
          exact textBody?_ordinary hmarks.1 hmarks.2 hle.1 fuel done rest
      · split
        · next hsmall =>
            rw [unitEscape, List.cons_append, List.cons_append, textBody?, unitEscape?_small hsmall]
        · next hlarge =>
            dsimp only
            rw [List.append_assoc, unitEscape, List.cons_append, List.cons_append, textBody?,
              unitEscape?_large (by omega)]

theorem escapeChar_ne_nil (c : Char) : escapeChar c ≠ [] := by
  unfold escapeChar
  repeat' split
  all_goals nofun

theorem length_le_length_flatMap_escapeChar (s : List Char) :
    s.length ≤ (s.flatMap escapeChar).length := by
  induction s with
  | nil => exact Nat.zero_le _
  | cons c s ih =>
      have hpos := List.length_pos_iff.mpr (escapeChar_ne_nil c)
      rw [List.flatMap_cons, List.length_append, List.length_cons]
      omega

theorem textBody?_flatMap_escapeChar (hfuel : s.length < fuel) (done rest : List Char) :
    textBody? fuel done (s.flatMap escapeChar ++ '"' :: rest) = some (done.reverse ++ s, rest) := by
  induction s generalizing fuel done with
  | nil =>
      obtain ⟨fuel, rfl⟩ : ∃ k, fuel = k + 1 := ⟨fuel - 1, by omega⟩
      rw [List.flatMap_nil, List.nil_append, textBody?, List.append_nil]
  | cons c s ih =>
      obtain ⟨fuel, rfl⟩ : ∃ k, fuel = k + 1 := ⟨fuel - 1, by omega⟩
      rw [List.flatMap_cons, List.append_assoc, textBody?_escapeChar, ih (by simpa using hfuel),
        List.reverse_cons, List.append_assoc, List.singleton_append]

/-- A written text is read back from behind its opening quote. -/
theorem text?_printed (s rest : List Char) :
    text? (s.flatMap escapeChar ++ '"' :: rest) = some (String.ofList s, rest) := by
  have hfuel : s.length < (s.flatMap escapeChar ++ '"' :: rest).length.succ := by
    have hle := length_le_length_flatMap_escapeChar s
    rw [List.length_append]
    omega
  rw [text?, textBody?_flatMap_escapeChar hfuel]
  rfl

/-! ## Values -/

theorem skipGap_of_not_isGap (hc : isGap c = false) : skipGap (c :: rest) = c :: rest := by
  rw [skipGap, List.dropWhile_cons_of_neg (by simp [hc])]

theorem value?_text (fuel : ℕ) (s : String) (rest : List Char) :
    value? (fuel + 1) (print (.text s) ++ rest) = some (.text s, rest) := by
  have hprinted : print (.text s) ++ rest =
      '"' :: (s.toList.flatMap escapeChar ++ '"' :: rest) := by
    simp [print, printText]
  have hread : (text? (s.toList.flatMap escapeChar ++ '"' :: rest)).map
      (fun x => (Datum.text x.1, x.2)) = some (.text s, rest) := by
    rw [text?_printed, Option.map_some, String.ofList_toList]
  rw [hprinted, value?, skipGap_of_not_isGap (by decide)]
  exact hread

/-! ### Natural numbers -/

theorem number?_of_isDigit (hne : s ≠ []) (hdigits : ∀ d ∈ s, Text.isDigit d = true) :
    number? s = some (.int (Text.ofDigits 10 s)) := by
  have hwhole : (s.any fun c => c == '.' || c == 'e' || c == 'E') = false := by
    rw [List.any_eq_false]
    intro d hd
    have hdigit := hdigits d hd
    simp [Text.ne_of_isDigit hdigit (q := '.') (by decide), Text.ne_of_isDigit hdigit (q := 'e') (by decide),
      Text.ne_of_isDigit hdigit (q := 'E') (by decide)]
  cases s with
  | nil => exact absurd rfl hne
  | cons d ds =>
      have hd : Text.isDigit d = true := hdigits d (by simp)
      have hplus : d ≠ '+' := Text.ne_of_isDigit hd (by decide)
      have hall : (d :: ds).all Text.isDigit = true := List.all_eq_true.mpr hdigits
      rw [number?, hwhole, Text.splitSign_of_isDigit hd]
      simp [hplus, Text.signed, List.all_cons.symm.trans hall]

theorem value?_of_isDigit {d : Char} (hd : Text.isDigit d = true) (fuel : ℕ) (s : List Char) :
    value? (fuel + 1) (d :: s) =
      (number? ((d :: s).takeWhile isNumberChar)).map fun x =>
        (x, (d :: s).dropWhile isNumberChar) := by
  have hgap : isGap d = false := by
    simp [isGap, Text.ne_of_isDigit hd (q := ' ') (by decide), Text.ne_of_isDigit hd (q := '\t') (by decide),
      Text.ne_of_isDigit hd (q := '\n') (by decide), Text.ne_of_isDigit hd (q := '\r') (by decide)]
  -- a digit starts none of the words, nor a text, a list or a mapping
  have hword (q : Char) (hq : Text.isDigit q = false) (word : List Char) :
      after? (q :: word) (d :: s) = none := by
    rw [after?, if_neg]
    simpa using (Text.ne_of_isDigit hd hq).symm
  rw [value?, skipGap_of_not_isGap hgap]
  split
  · next heq =>
      cases heq
      exact absurd hd (by decide)
  · next heq =>
      cases heq
      exact absurd hd (by decide)
  · next heq =>
      cases heq
      exact absurd hd (by decide)
  · have hnull : after? "null".toList (d :: s) = none := hword 'n' (by decide) _
    have htrue : after? "true".toList (d :: s) = none := hword 't' (by decide) _
    have hfalse : after? "false".toList (d :: s) = none := hword 'f' (by decide) _
    rw [hnull, htrue, hfalse]

theorem print_natural (n : ℕ) : print (.int n) = Text.decimal n := by
  simp [print, Text.intDecimal]

/-- A natural number is read back if no character follows that could belong to a number. -/
theorem value?_natural (fuel n : ℕ) (hc : isNumberChar c = false) (rest : List Char) :
    value? (fuel + 1) (print (.int n) ++ c :: rest) = some (.int n, c :: rest) := by
  have hdigits : ∀ d ∈ Text.decimal n, Text.isDigit d = true :=
    fun d hd => Text.isDigit_of_mem_decimal hd
  have hnumber : ∀ d ∈ Text.decimal n, isNumberChar d = true := by
    intro d hd
    simp [isNumberChar, hdigits d hd]
  have htake : (Text.decimal n ++ c :: rest).takeWhile isNumberChar = Text.decimal n := by
    rw [List.takeWhile_append_of_pos hnumber, List.takeWhile_cons_of_neg (by simp [hc]),
      List.append_nil]
  have hdrop : (Text.decimal n ++ c :: rest).dropWhile isNumberChar = c :: rest := by
    rw [List.dropWhile_append_of_pos hnumber, List.dropWhile_cons_of_neg (by simp [hc])]
  have hvalue : Text.ofDigits 10 (Text.decimal n) = n :=
    Text.ofDigits_natDigits (by decide) (by decide) n
  obtain ⟨d, ds, hcons⟩ := List.exists_cons_of_ne_nil (Text.decimal_ne_nil n)
  have hread := value?_of_isDigit (hdigits d (by simp [hcons])) fuel (ds ++ c :: rest)
  rw [← List.cons_append, ← hcons, htake, hdrop,
    number?_of_isDigit (Text.decimal_ne_nil n) hdigits, hvalue] at hread
  rw [print_natural]
  exact hread

/-! ## Mappings -/

/-- A value that needs no value inside it. -/
inductive IsPlain : Datum → Prop where
  | text (s : String) : IsPlain (.text s)
  | natural (n : ℕ) : IsPlain (.int n)

theorem IsPlain.value?_print {v : Datum} (hv : IsPlain v) (fuel : ℕ)
    (hc : isNumberChar c = false) (rest : List Char) :
    value? (fuel + 1) (print v ++ c :: rest) = some (v, c :: rest) := by
  cases hv with
  | text s => exact value?_text fuel s (c :: rest)
  | natural n => exact value?_natural fuel n hc rest

/-- Text keys with values. -/
def pairsOf (members : List (String × Datum)) : List (Datum × Datum) :=
  members.map fun m => (.text m.1, m.2)

theorem skipGap_space (s : List Char) : skipGap (' ' :: s) = skipGap s := rfl

theorem value?_space (fuel : ℕ) (s : List Char) : value? fuel (' ' :: s) = value? fuel s := by
  cases fuel with
  | zero => rw [value?, value?]
  | succ fuel => rw [value?, value?, skipGap_space]

theorem pairs?_space (fuel : ℕ) (pairs : List (Datum × Datum)) (s : List Char) :
    pairs? fuel pairs (' ' :: s) = pairs? fuel pairs s := by
  cases fuel with
  | zero => rw [pairs?, pairs?]
  | succ fuel => rw [pairs?, pairs?, skipGap_space]

/-- A written pair. -/
def pairText (key : String) (value : Datum) : List Char :=
  printText key.toList ++ ':' :: ' ' :: print value

/-- What follows a pair that was read. -/
def pairsEnd? (fuel : ℕ) (pairs : List (Datum × Datum)) :
    List Char → Option (List (Datum × Datum) × List Char)
  | ',' :: rest => pairs? fuel pairs rest
  | '\x7d' :: rest => some (pairs, rest)
  | _ => none

theorem pairs?_pairText {v : Datum} (hv : IsPlain v) (hnumber : isNumberChar c = false)
    (hgap : isGap c = false) (key : String) (fuel : ℕ) (pairs : List (Datum × Datum))
    (rest : List Char) :
    pairs? (fuel + 2) pairs (pairText key v ++ c :: rest) =
      pairsEnd? (fuel + 1) (Datum.putPair (.text key) v pairs) (c :: rest) := by
  -- a pair is the key between quotes, a colon, a space and the value
  have hwritten : pairText key v ++ c :: rest = '"' :: (key.toList.flatMap escapeChar ++
      '"' :: ':' :: ' ' :: (print v ++ c :: rest)) := by
    simp [pairText, printText]
  have hkey : text? (key.toList.flatMap escapeChar ++ '"' :: ':' :: ' ' :: (print v ++ c :: rest)) =
      some (key, ':' :: ' ' :: (print v ++ c :: rest)) := by
    rw [text?_printed, String.ofList_toList]
  have hvalue := hv.value?_print fuel hnumber rest
  have hcolon : after? [':'] (skipGap (':' :: ' ' :: (print v ++ c :: rest))) =
      some (' ' :: (print v ++ c :: rest)) := rfl
  rw [hwritten, pairs?, skipGap_of_not_isGap (by decide)]
  split
  · next heq =>
      cases heq
      rw [hkey]
      simp only [Option.bind_eq_bind, Option.bind_some, hcolon, value?_space, hvalue,
        skipGap_of_not_isGap hgap]
      rfl
  · next hne => exact absurd rfl (hne _)

theorem putPair_pairsOf {key : String} {members : List (String × Datum)}
    (hkey : key ∉ members.map Prod.fst) (v : Datum) :
    Datum.putPair (.text key) v (pairsOf members) = pairsOf (members ++ [(key, v)]) := by
  have hnew : Datum.text key ∉ (pairsOf members).map Prod.fst := by
    rw [pairsOf, List.map_map]
    intro hmem
    obtain ⟨m, hm, hsame⟩ := List.mem_map.mp hmem
    cases hsame
    exact hkey (List.mem_map_of_mem hm)
  rw [Datum.putPair_of_not_mem hnew, pairsOf, pairsOf, List.map_append]
  rfl

theorem commaSeparated_cons_cons (a b : List Char) (rest : List (List Char)) :
    Datum.commaSeparated (a :: b :: rest) =
      a ++ ',' :: ' ' :: Datum.commaSeparated (b :: rest) := by
  simp [Datum.commaSeparated]

/-- The written pairs are read back behind those already read. -/
theorem pairs?_printPairs {read members : List (String × Datum)} (hne : members ≠ [])
    (hplain : ∀ m ∈ members, IsPlain m.2) (hnodup : ((read ++ members).map Prod.fst).Nodup)
    (hfuel : members.length < fuel) (rest : List Char) :
    pairs? fuel (pairsOf read)
        (Datum.commaSeparated (printPairs (pairsOf members)) ++ '\x7d' :: rest) =
      some (pairsOf (read ++ members), rest) := by
  induction members generalizing read fuel with
  | nil => exact absurd rfl hne
  | cons m members ih =>
      obtain ⟨fuel, rfl⟩ : ∃ k, fuel = k + 2 := by
        rw [List.length_cons] at hfuel
        exact ⟨fuel - 2, by omega⟩
      have hkey : m.1 ∉ read.map Prod.fst := by
        rw [List.map_append, List.nodup_append] at hnodup
        exact fun hmem => hnodup.2.2 m.1 hmem m.1 (by simp) rfl
      rw [List.forall_mem_cons] at hplain
      -- the key is new, so the pair comes behind those already read
      have hput := putPair_pairsOf hkey m.2
      cases members with
      | nil =>
          have hprinted : Datum.commaSeparated (printPairs (pairsOf [m])) = pairText m.1 m.2 := rfl
          rw [hprinted, pairs?_pairText hplain.1 (by decide) (by decide), hput]
          rfl
      | cons next members =>
          have hprinted : printPairs (pairsOf (m :: next :: members)) =
            pairText m.1 m.2 :: printPairs (pairsOf (next :: members)) := rfl
          have hprinted' : printPairs (pairsOf (next :: members)) =
            pairText next.1 next.2 :: printPairs (pairsOf members) := rfl
          rw [List.append_cons] at hnodup
          have hfuel' : (next :: members).length < fuel + 1 := by simpa using hfuel
          have hrest := ih nofun hplain.2 hnodup hfuel'
          rw [hprinted, hprinted', commaSeparated_cons_cons, List.append_assoc, List.cons_append,
            List.cons_append, pairs?_pairText hplain.1 (by decide) (by decide), hput, pairsEnd?,
            pairs?_space, ← hprinted', hrest, List.append_assoc]
          rfl

theorem length_le_length_commaSeparated {parts : List (List Char)} (hne : ∀ p ∈ parts, p ≠ []) :
    parts.length ≤ (Datum.commaSeparated parts).length := by
  induction parts with
  | nil => exact Nat.zero_le _
  | cons p parts ih =>
      rw [List.forall_mem_cons] at hne
      have hpos := List.length_pos_iff.mpr hne.1
      cases parts with
      | nil => exact hpos
      | cons q parts =>
          have hle := ih hne.2
          rw [commaSeparated_cons_cons]
          simp only [List.length_append, List.length_cons] at hle ⊢
          omega

theorem printPairs_pairsOf (members : List (String × Datum)) :
    printPairs (pairsOf members) = members.map fun m => pairText m.1 m.2 := by
  induction members with
  | nil => rfl
  | cons m members ih => exact congrArg (pairText m.1 m.2 :: ·) ih

theorem print_map (members : List (String × Datum)) : print (.map (pairsOf members)) =
    '\x7b' :: (Datum.commaSeparated (printPairs (pairsOf members)) ++ ['\x7d']) := by
  rw [print, List.cons_append]

theorem length_lt_length_print_map (members : List (String × Datum)) :
    members.length < (print (.map (pairsOf members))).length := by
  have hle : (printPairs (pairsOf members)).length ≤
      (Datum.commaSeparated (printPairs (pairsOf members))).length := by
    refine length_le_length_commaSeparated fun p hp => ?_
    rw [printPairs_pairsOf] at hp
    obtain ⟨m, -, rfl⟩ := List.mem_map.mp hp
    nofun
  rw [printPairs_pairsOf, List.length_map, ← printPairs_pairsOf] at hle
  simp only [print_map, List.length_cons, List.length_append]
  omega

theorem value?_map (fuel : ℕ) (s : List Char) :
    value? (fuel + 1) ('\x7b' :: '"' :: s) =
      (pairs? fuel [] ('"' :: s)).map fun x => (.map x.1, x.2) := by
  rw [value?, skipGap_of_not_isGap (by decide)]
  rfl

/-- A mapping of different text keys to plain values is read back. -/
theorem parse_print_map {members : List (String × Datum)} (hplain : ∀ m ∈ members, IsPlain m.2)
    (hnodup : (members.map Prod.fst).Nodup) :
    parse (print (.map (pairsOf members))) = some (.map (pairsOf members)) := by
  cases members with
  | nil => rfl
  | cons m members =>
      -- a quote comes first, so the mapping is not taken for an empty one
      obtain ⟨tail, htail⟩ : ∃ tail,
          Datum.commaSeparated (printPairs (pairsOf (m :: members))) ++ ['\x7d'] = '"' :: tail := by
        rw [printPairs_pairsOf]
        cases members with
        | nil => exact ⟨_, rfl⟩
        | cons next members => exact ⟨_, rfl⟩
      have hread : pairs? (print (.map (pairsOf (m :: members)))).length (pairsOf [])
          (Datum.commaSeparated (printPairs (pairsOf (m :: members))) ++ ['\x7d']) =
          some (pairsOf ([] ++ m :: members), []) :=
        pairs?_printPairs (List.cons_ne_nil m members) hplain hnodup
          (length_lt_length_print_map _) []
      have hprinted : print (.map (pairsOf (m :: members))) = '\x7b' :: '"' :: tail := by
        rw [print_map, htail]
      rw [htail, hprinted] at hread
      rw [hprinted, parse, Nat.succ_eq_add_one, value?_map]
      change pairs? _ [] _ = some (pairsOf (m :: members), []) at hread
      rw [hread]
      rfl

/-! ## What is written is printable -/

theorem isPrintable_unitEscape (n : ℕ) : ∀ d ∈ unitEscape n, isPrintable d = true := by
  intro d hd
  rw [unitEscape, List.mem_cons, List.mem_cons] at hd
  rcases hd with rfl | rfl | hd
  · decide
  · decide
  · obtain ⟨v, hv, rfl⟩ := Text.mem_padded (by decide) hd
    exact isPrintable_digitChar v hv

theorem isPrintable_letterEscape {letter : Char} (hletter : isPrintable letter = true) :
    ∀ d ∈ ['\\', letter], isPrintable d = true :=
  List.forall_mem_cons.mpr ⟨by decide, List.forall_mem_singleton.mpr hletter⟩

theorem isPrintable_escapeChar (c : Char) : ∀ d ∈ escapeChar c, isPrintable d = true := by
  unfold escapeChar
  split
  · next hmark =>
      rcases (show c = '"' ∨ c = '\\' by simpa using hmark) with rfl | rfl
      · exact isPrintable_letterEscape (by decide)
      · exact isPrintable_letterEscape (by decide)
  · iterate 5
      split
      · exact isPrintable_letterEscape (by decide)
    split
    · next hprintable =>
        intro d hd
        rw [List.mem_singleton.mp hd]
        exact hprintable
    · split
      · exact isPrintable_unitEscape _
      · intro d hd
        rcases List.mem_append.mp hd with hd | hd
        · exact isPrintable_unitEscape _ d hd
        · exact isPrintable_unitEscape _ d hd

theorem isPrintable_printText (s : List Char) : ∀ d ∈ printText s, isPrintable d = true := by
  intro d hd
  simp only [printText, List.cons_append, List.mem_cons, List.mem_append, List.mem_flatMap,
    List.not_mem_nil, or_false] at hd
  rcases hd with rfl | ⟨c, -, hd⟩ | rfl
  · decide
  · exact isPrintable_escapeChar c d hd
  · decide

theorem IsPlain.isPrintable_print {v : Datum} (hv : IsPlain v) :
    ∀ d ∈ print v, isPrintable d = true := by
  cases hv with
  | text s =>
      rw [print]
      exact isPrintable_printText s.toList
  | natural n =>
      intro d hd
      rw [print_natural] at hd
      obtain ⟨v, hv, rfl⟩ := Text.exists_digit_of_mem (by decide) hd
      exact isPrintable_digitChar v (Nat.lt_trans hv (by decide))

theorem isPrintable_pairText {v : Datum} (hv : IsPlain v) (key : String) :
    ∀ d ∈ pairText key v, isPrintable d = true := by
  intro d hd
  simp only [pairText, List.mem_append, List.mem_cons] at hd
  rcases hd with hd | rfl | rfl | hd
  · exact isPrintable_printText _ d hd
  · decide
  · decide
  · exact hv.isPrintable_print d hd

theorem isPrintable_commaSeparated {parts : List (List Char)}
    (h : ∀ p ∈ parts, ∀ d ∈ p, isPrintable d = true) :
    ∀ d ∈ Datum.commaSeparated parts, isPrintable d = true := by
  induction parts with
  | nil => exact nofun
  | cons p parts ih =>
      rw [List.forall_mem_cons] at h
      cases parts with
      | nil => exact h.1
      | cons q parts =>
          rw [commaSeparated_cons_cons]
          intro d hd
          rw [List.mem_append, List.mem_cons, List.mem_cons] at hd
          rcases hd with hd | rfl | rfl | hd
          · exact h.1 d hd
          · decide
          · decide
          · exact ih h.2 d hd

/-- A mapping of text keys to plain values is written with printable characters only. -/
theorem isPrintable_print_map {members : List (String × Datum)}
    (hplain : ∀ m ∈ members, IsPlain m.2) :
    ∀ d ∈ print (.map (pairsOf members)), isPrintable d = true := by
  have hparts : ∀ p ∈ printPairs (pairsOf members), ∀ d ∈ p, isPrintable d = true := by
    rw [printPairs_pairsOf]
    intro p hp
    obtain ⟨m, hm, rfl⟩ := List.mem_map.mp hp
    exact isPrintable_pairText (hplain m hm) m.1
  intro d hd
  rw [print_map, List.mem_cons, List.mem_append, List.mem_singleton] at hd
  rcases hd with rfl | hd | rfl
  · decide
  · exact isPrintable_commaSeparated hparts d hd
  · decide

end LoopPainter.Json
