import LoopPainter.Text.Blank
import LoopPainter.Text.LetterCase
import LoopPainter.Text.Digits

/-!
# Closed vocabularies of eight words

Colors and headings are both vocabularies of eight members in a fixed cyclic
order.  `Vocabulary` records the order as a bijection with `Fin 8` together with
the word for each member; everything else follows from these:

* `next` is the successor in the cycle;
* `ofIndex?` looks a member up by position, negative positions counting from the
  end;
* `read` recognizes a word, padded with blanks or not, in any letter case.

A word outside the vocabulary is an error; there is no fallback member.
-/

namespace LoopPainter

/-- The position `n` places after the first. -/
def Vocabulary.position (n : Nat) : Fin 8 :=
  Fin.ofNat 8 n

/-- Eight words in cyclic order. -/
class Vocabulary (α : Type) where
  /-- What the words are names of. -/
  noun : String
  /-- The word for a member. -/
  word : α → String
  /-- The position of a member in the cycle. -/
  ordinal : α → Fin 8
  /-- The member at a position. -/
  ofOrdinal : Fin 8 → α
  ofOrdinal_ordinal : ∀ a, ofOrdinal (ordinal a) = a
  ordinal_ofOrdinal : ∀ i, ordinal (ofOrdinal i) = i

namespace Vocabulary

variable {α : Type} [Vocabulary α]

/-- Why a member was not found. -/
inductive Fault where
  | unknownWord (noun shown : String)
  | noSuchOrdinal
  deriving DecidableEq, Repr

/-- The text of a complaint. -/
def Fault.message : Fault → String
  | .unknownWord noun shown => "Invalid " ++ noun ++ ": " ++ shown
  | .noSuchOrdinal => "tuple index out of range"

/-- All members in cyclic order. -/
def members (α : Type) [Vocabulary α] : List α :=
  (List.finRange 8).map ofOrdinal

/-- The successor in the cycle; the last member is followed by the first. -/
def next (a : α) : α :=
  ofOrdinal (ordinal a + 1)

/-- The member `n` places further on. -/
def advance (n : Nat) (a : α) : α :=
  ofOrdinal (ordinal a + position n)

/-- The member at a position; the positions from `-8` to `-1` count from the end. -/
def ofIndex (α : Type) [Vocabulary α] (i : Int) : Except Fault α :=
  if -8 ≤ i ∧ i < 8 then .ok (ofOrdinal (position (i % 8).toNat))
  else .error .noSuchOrdinal

/-- The member whose word is `s`, up to letter case and surrounding blanks. -/
def find? (α : Type) [Vocabulary α] (s : List Char) : Option α :=
  let wanted := Text.lower (Text.strip s)
  (members α).find? fun a => Text.lower (word a).toList == wanted

/-- Read a word; the complaint shows it as it was given. -/
def read (α : Type) [Vocabulary α] (s : String) : Except Fault α :=
  match find? α s.toList with
  | some a => .ok a
  | none => .error (.unknownWord (noun α) s)

/-- A word in capitals, with an underscore before every capital inside it. -/
def capitals : List Char → List Char
  | [] => []
  | c :: rest =>
    Text.upperChar c ++ rest.flatMap fun d =>
      if 'A' ≤ d && d ≤ 'Z' then ['_', d] else Text.upperChar d

/-- The constant's name of a member, such as `UP_RIGHT`. -/
def label (a : α) : String :=
  String.ofList (capitals (word a).toList)

/-- The noun with a capital. -/
def title (α : Type) [Vocabulary α] : String :=
  (noun α).capitalize

/-- A member as a labeled constant, such as `<Color.RED: 'Red'>`. -/
def display (a : α) : String :=
  "<" ++ title α ++ "." ++ label a ++ ": '" ++ word a ++ "'>"

@[simp] theorem ordinal_next (a : α) : ordinal (next a) = ordinal a + 1 :=
  ordinal_ofOrdinal _

end Vocabulary

end LoopPainter
