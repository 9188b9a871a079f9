import LoopPainter.Proofs.Brackets.Outline
import LoopPainter.Proofs.Machine.Walk

/-!
# The machine passes through a tree

The machine has one cursor, one stack and a flat set of fired positions; the tree of
a text has none of these.  `passage_block` is the bridge: from any easel and with
any open loops, a machine at the first character of a block gets to the place right
behind the block, and

* the easel is then the one that the unrolled block draws,
* the pauses on the way are those of the unrolled block,
* the open loops and the fired positions are what they were before.

The only assumption is that no bracket of the block has fired before.  It is kept by
the two passes of a loop: the fired `]` of a loop stands behind its body, and it is
taken off again when the second pass is over.

`Block.visits` lists the positions that are executed on the way.
-/

namespace LoopPainter

namespace Brackets

/-- The positions that are executed in turn by passing through a block at position `i`. -/
def Block.visits : Block → ℕ → List ℕ
  | done, _ => []
  | plain _ _ rest, i => i :: rest.visits (i + 1)
  | loop body rest, i =>
    let close := i + 1 + body.length
    i :: (body.visits (i + 1) ++ close :: (body.visits (i + 1) ++ close :: rest.visits (close + 1)))

/-- The positions that are executed in turn by passing through an outline at position `i`. -/
def Outline.visits : Outline → ℕ → List ℕ
  | last b, i => b.visits i
  | opened b rest, i => b.visits i ++ (i + b.length) :: rest.visits (i + b.length + 1)

/-- The positions that are executed in turn by a text. -/
def Reading.visits : Reading → List ℕ
  | whole o => o.visits 0
  | cut b _ => b.visits 0

/-- The open loops behind an outline at position `i`, if those of `starts` were open before. -/
def Outline.starts : Outline → ℕ → List ℤ → List ℤ
  | last _, _, starts => starts
  | opened b rest, i, starts =>
    rest.starts (i + b.length + 1) (((i + b.length + 1 : ℕ) : ℤ) :: starts)

/-- The open loops at the end of a text. -/
def Reading.starts : Reading → List ℤ
  | whole o => o.starts 0 []
  | cut _ _ => []

end Brackets

namespace Machine

open Brackets

variable {p : Array Char} {s : Easel} {i : ℕ} {starts fired : List ℤ}

/-! ## Texts inside a program -/

/-- The text `t` stands at position `i` of the program `p`. -/
def At (p : Array Char) (i : ℕ) (t : List Char) : Prop :=
  t <+: p.toList.drop i

namespace At

variable {c : Char} {t t' : List Char}

theorem right (h : At p i (t ++ t')) : At p (i + t.length) t' := by
  obtain ⟨after, hafter⟩ := h
  have hdrop : p.toList.drop (i + t.length) = t' ++ after := by
    rw [← List.drop_drop, ← hafter]
    simp
  rw [At, hdrop]
  exact List.prefix_append t' after

theorem left (h : At p i (t ++ t')) : At p i t :=
  (List.prefix_append t t').trans h

theorem head (h : At p i (c :: t)) : p[i]? = some c := by
  obtain ⟨after, hafter⟩ := h
  rw [← Array.getElem?_toList, ← List.head?_drop, ← hafter]
  rfl

theorem tail (h : At p i (c :: t)) : At p (i + 1) t :=
  right (t := [c]) h

end At

theorem at_of_whole {r : Outline} (h : Reading.ofText p.toList = .whole r) : At p 0 r.text := by
  rw [Reading.text_of_whole h]
  exact List.prefix_rfl

theorem at_of_cut {b : Block} {after : List Char} (h : Reading.ofText p.toList = .cut b after) :
    At p 0 (b.text ++ ']' :: after) := by
  rw [Reading.text_of_cut h]
  exact List.prefix_rfl

/-! ## Passages -/

/-- `m` gets to `last`; on the way it executes the characters at `positions`, and its pauses show
`looks`. -/
def Passage (m : Machine) (positions : List ℕ) (looks : List (Painter × Canvas))
    (last : Machine) : Prop :=
  ∃ ms, Walk m ms last ∧ ms.map index = positions.map Nat.cast ∧ ms.filterMap pauseLook = looks

namespace Passage

theorem stay (m : Machine) : Passage m [] [] m :=
  ⟨[], .stay m, rfl, rfl⟩

theorem append {m m' last : Machine} {positions positions' : List ℕ}
    {looks looks' : List (Painter × Canvas)} (h : Passage m positions looks m')
    (h' : Passage m' positions' looks' last) :
    Passage m (positions ++ positions') (looks ++ looks') last := by
  obtain ⟨ms, hwalk, hindex, hlook⟩ := h
  obtain ⟨ms', hwalk', hindex', hlook'⟩ := h'
  refine ⟨ms ++ ms', hwalk.append hwalk', ?_, ?_⟩
  · rw [List.map_append, hindex, hindex', List.map_append]
  · rw [List.filterMap_append, hlook, hlook']

theorem plain {c : Char} (hc : p[i]? = some c) (hne : c ≠ '[' ∧ c ≠ ']') :
    Passage (place p s i starts fired) [i] ((if c = 'S' then [s] else []).map Easel.look)
      (place p (s.obey c) (i + 1 : ℕ) starts fired) := by
  have hcurrent : (place p s i starts fired).current? = some c := by simpa using hc
  refine ⟨_, .single (step_plain hcurrent hne), rfl, ?_⟩
  by_cases hS : c = 'S' <;> simp [pauseLook, hc, hS]

theorem opening (hc : p[i]? = some '[') :
    Passage (place p s i starts fired) [i] []
      (place p s (i + 1 : ℕ) (((i + 1 : ℕ) : ℤ) :: starts) fired) := by
  have hcurrent : (place p s i starts fired).current? = some '[' := by simpa using hc
  exact ⟨_, .single (step_open hcurrent), rfl, by simp [pauseLook, hc]⟩

theorem jumping {t : ℤ} (hc : p[i]? = some ']') (hfired : (i : ℤ) ∉ fired) :
    Passage (place p s i (t :: starts) fired) [i] [] (place p s t starts (i :: fired)) := by
  have hcurrent : (place p s i (t :: starts) fired).current? = some ']' := by simpa using hc
  exact ⟨_, .single (step_jump hcurrent hfired), rfl, by simp [pauseLook, hc]⟩

theorem passing (hc : p[i]? = some ']') :
    Passage (place p s i starts (i :: fired)) [i] [] (place p s (i + 1 : ℕ) starts fired) := by
  have hcurrent : (place p s i starts (i :: fired)).current? = some ']' := by simpa using hc
  have hstep := step_pass hcurrent List.mem_cons_self
  rw [List.erase_cons_head] at hstep
  exact ⟨_, .single hstep, rfl, by simp [pauseLook, hc]⟩

end Passage

/-! ## Blocks -/

/-- No bracket at the `n` positions from `i` on has fired. -/
def Unfired (fired : List ℤ) (i n : ℕ) : Prop :=
  ∀ f ∈ fired, f < i ∨ (i + n : ℕ) ≤ f

theorem Unfired.mono {n j m : ℕ} (h : Unfired fired i n) (hij : i ≤ j) (hend : j + m ≤ i + n) :
    Unfired fired j m := by
  intro f hf
  have := h f hf
  omega

theorem Unfired.not_mem {n j : ℕ} (h : Unfired fired i n) (hij : i ≤ j) (hend : j < i + n) :
    (j : ℤ) ∉ fired := by
  intro hj
  have := h j hj
  omega

private theorem obey_of_not_mem_strokes {c : Char} (s : Easel) (hc : c ∉ strokes) :
    s.obey c = s := by
  unfold Easel.obey
  split
  · exact absurd (by decide) hc
  · exact absurd (by decide) hc
  · exact absurd (by decide) hc
  · rfl

private theorem draw_unroll_plain {c : Char} (s : Easel) (hne : c ≠ '[' ∧ c ≠ ']') (rest : Block) :
    s.draw (Block.plain c hne rest).unroll = (s.obey c).draw rest.unroll := by
  rw [Block.unroll]
  split
  · rfl
  · next hc => rw [obey_of_not_mem_strokes s hc]

private theorem pauses_unroll_plain {c : Char} (s : Easel) (hne : c ≠ '[' ∧ c ≠ ']')
    (rest : Block) :
    s.pauses (Block.plain c hne rest).unroll =
      (if c = 'S' then [s] else []) ++ (s.obey c).pauses rest.unroll := by
  rw [Block.unroll]
  split
  · rfl
  · next hc =>
      have hS : c ≠ 'S' := fun h => hc (by rw [h]; decide)
      rw [if_neg hS, obey_of_not_mem_strokes s hc, List.nil_append]

/-- The machine gets through a block as its unrolled text does, and leaves the open loops and the
fired positions as it found them. -/
theorem passage_block (b : Block) (p : Array Char) (s : Easel) (i : ℕ) (starts fired : List ℤ)
    (hat : At p i b.text) (hunfired : Unfired fired i b.length) :
    Passage (place p s i starts fired) (b.visits i) ((s.pauses b.unroll).map Easel.look)
      (place p (s.draw b.unroll) (i + b.length : ℕ) starts fired) := by
  induction b generalizing s i starts fired with
  | done => exact .stay _
  | plain c hne rest ih =>
      have hlen := Block.length_plain c hne rest
      have hfirst : Passage (place p s i starts fired) _ _
          (place p (s.obey c) (i + 1 : ℕ) starts fired) := .plain hat.head hne
      have hrest := ih (s.obey c) (i + 1) starts fired hat.tail
        (hunfired.mono (by omega) (by omega))
      rw [draw_unroll_plain, pauses_unroll_plain, List.map_append, hlen,
        show i + (rest.length + 1) = i + 1 + rest.length by omega]
      exact hfirst.append hrest
  | loop body rest ihbody ihrest =>
      have hlen := Block.length_loop body rest
      have hclose : At p (i + 1 + body.length) (']' :: rest.text) := hat.tail.right
      -- the first pass, with the loop open
      have hopen : Passage (place p s i starts fired) _ _ _ := .opening hat.head
      have hfirst := ihbody s (i + 1) (((i + 1 : ℕ) : ℤ) :: starts) fired hat.tail.left
        (hunfired.mono (by omega) (by omega))
      have hjump : Passage (place p (s.draw body.unroll) (i + 1 + body.length : ℕ)
          (((i + 1 : ℕ) : ℤ) :: starts) fired) _ _ _ :=
        .jumping hclose.head (hunfired.not_mem (by omega) (by omega))
      -- the second pass, with the loop closed and its bracket fired
      have hsecond := ihbody (s.draw body.unroll) (i + 1) starts
        (((i + 1 + body.length : ℕ) : ℤ) :: fired) hat.tail.left
        (List.forall_mem_cons.mpr ⟨.inr (Int.le_refl _), hunfired.mono (by omega) (by omega)⟩)
      have hpass : Passage (place p ((s.draw body.unroll).draw body.unroll)
          (i + 1 + body.length : ℕ) starts (((i + 1 + body.length : ℕ) : ℤ) :: fired)) _ _ _ :=
        .passing hclose.head
      have hrest := ihrest ((s.draw body.unroll).draw body.unroll) (i + 1 + body.length + 1) starts
        fired hclose.tail (hunfired.mono (by omega) (by omega))
      have hall := hopen.append (hfirst.append (hjump.append (hsecond.append (hpass.append hrest))))
      rw [hlen, show i + (body.length + rest.length + 2) =
        i + 1 + body.length + 1 + rest.length by omega]
      simpa [Block.unroll, Block.visits] using hall

/-! ## Whole programs -/

theorem passage_outline (r : Outline) (p : Array Char) (s : Easel) (i : ℕ) (starts : List ℤ)
    (hat : At p i r.text) :
    Passage (place p s i starts []) (r.visits i) ((s.pauses r.unroll).map Easel.look)
      (place p (s.draw r.unroll) (i + r.text.length : ℕ) (r.starts i starts) []) := by
  induction r generalizing s i starts with
  | last b => exact passage_block b p s i starts [] hat (by simp [Unfired])
  | opened b rest ih =>
      have hopen : At p (i + b.length) ('[' :: rest.text) := hat.right
      have hblock := passage_block b p s i starts [] hat.left (by simp [Unfired])
      have hopening : Passage (place p (s.draw b.unroll) (i + b.length : ℕ) starts []) _ _ _ :=
        .opening hopen.head
      have hrest := ih (s.draw b.unroll) (i + b.length + 1)
        (((i + b.length + 1 : ℕ) : ℤ) :: starts) hopen.tail
      have hall := hblock.append (hopening.append hrest)
      have hend : i + (Outline.opened b rest).text.length =
          i + b.length + 1 + rest.text.length := by
        simp only [Outline.text, List.length_append, List.length_cons, b.length_text]
        omega
      rw [hend]
      simpa [Outline.unroll, Outline.visits, Outline.starts] using hall

/-- From the start a machine gets to the cut of its program, or to the end if there is none. -/
theorem passage_start (p : Array Char) (canvas : Canvas) :
    Passage (start p canvas) (Reading.ofText p.toList).visits
      (((Easel.centered canvas).pauses (unroll p.toList)).map Easel.look)
      (place p ((Easel.centered canvas).draw (unroll p.toList)) (cutoff p.toList)
        (Reading.ofText p.toList).starts []) := by
  rw [start_eq_place, unroll]
  cases hread : Reading.ofText p.toList with
  | whole r =>
      have hpassage := passage_outline r p (.centered canvas) 0 [] (at_of_whole hread)
      rw [Reading.text_of_whole hread, Nat.zero_add] at hpassage
      rw [cutoff_of_whole hread]
      exact hpassage
  | cut b after =>
      have hpassage := passage_block b p (.centered canvas) 0 [] [] (at_of_cut hread).left
        (by simp [Unfired])
      rw [Nat.zero_add] at hpassage
      rw [cutoff_of_cut hread]
      exact hpassage

/-- How a program comes to its end. -/
def haltOf (l : List Char) : Halt :=
  if cutoff l < l.length then .unmatchedClose (cutoff l) else .endOfCommands (cutoff l)

/-- At the cut of a program no step is taken any more. -/
theorem step_cutoff (p : Array Char) (s : Easel) :
    (place p s (cutoff p.toList) (Reading.ofText p.toList).starts []).step =
      (.error (haltOf p.toList),
        place p s (cutoff p.toList) (Reading.ofText p.toList).starts []) := by
  cases hread : Reading.ofText p.toList with
  | whole r =>
      rw [haltOf, cutoff_of_whole hread, if_neg (Nat.lt_irrefl _)]
      exact step_finished (by simp)
  | cut b after =>
      have hclose : p[0 + b.length]? = some ']' := (at_of_cut hread).right.head
      rw [Nat.zero_add] at hclose
      have hlt := (Array.getElem?_eq_some_iff.mp hclose).1
      rw [haltOf, cutoff_of_cut hread, Array.length_toList, if_pos hlt]
      exact step_stray (by rwa [current?_place]) List.not_mem_nil

/-- The whole run of a program. -/
theorem run_start (p : Array Char) (canvas : Canvas) :
    (start p canvas).run = ((Reading.ofText p.toList).visits.length, haltOf p.toList,
      place p ((Easel.centered canvas).draw (unroll p.toList)) (cutoff p.toList)
        (Reading.ofText p.toList).starts []) := by
  obtain ⟨ms, hwalk, hindex, -⟩ := passage_start p canvas
  have hlen := congrArg List.length hindex
  simp only [List.length_map] at hlen
  rw [run_of_walk hwalk (step_cutoff p _), hlen]

end Machine

end LoopPainter
