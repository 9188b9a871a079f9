import LoopPainter.Text.Digits

/-!
# Message templates

A template is a text with directives.  A directive starts with a percent sign and ends with
a letter that says how a value is shown; between them stand, all of them optional and in
this order: a key in parentheses, flags, a width, a precision behind a point, and a size
letter without meaning.  A width or precision that is a star is taken from the values.  Two
percent signs, one directly behind the other, stand for one.

`parts` takes a template apart.  Nothing is an error at this stage: a directive that breaks
off has no letter, and is refused when it is filled in.
-/

namespace LoopPainter

/-- The flags of a directive. -/
structure Template.Flags where
  left : Bool := false
  plus : Bool := false
  blank : Bool := false
  alternate : Bool := false
  zero : Bool := false
  deriving DecidableEq, Repr

/-- A number of a directive. -/
inductive Template.Amount where
  | absent
  | star
  | digits (n : Nat)
  deriving DecidableEq, Repr

/-- The key of a directive. -/
inductive Template.Key where
  | absent
  | unclosed
  | named (key : String)
  deriving DecidableEq, Repr

/-- A place where a value is shown. -/
structure Template.Directive where
  key : Template.Key
  flags : Template.Flags
  width : Template.Amount
  precision : Template.Amount
  /-- How the value is shown, if the directive does not break off. -/
  letter : Option Char
  deriving DecidableEq, Repr

/-- A part of a template. -/
inductive Template.Part where
  | plain (c : Char)
  /-- A directive and the position of its letter. -/
  | directive (d : Template.Directive) (position : Nat)
  deriving DecidableEq, Repr

namespace Template

/-! ## Reading a directive

Every function takes a prefix off a text and gives back the rest. -/

/-- The key up to the parenthesis that closes `depth` open ones. -/
def takeKey : (depth : Nat) → List Char → Option (List Char) × List Char
  | _, [] => (none, [])
  | depth, c :: rest =>
    if c == ')' then
      if depth ≤ 1 then (some [], rest)
      else
        let (key, after) := takeKey (depth - 1) rest
        (key.map (c :: ·), after)
    else
      let (key, after) := takeKey (if c == '(' then depth + 1 else depth) rest
      (key.map (c :: ·), after)

/-- A key in parentheses. -/
def takeNamed : List Char → Key × List Char
  | '(' :: rest =>
    match takeKey 1 rest with
    | (some key, after) => (.named (String.ofList key), after)
    | (none, after) => (.unclosed, after)
  | s => (.absent, s)

/-- Set the flag that a character stands for. -/
def Flags.set (f : Flags) (c : Char) : Flags :=
  match c with
  | '-' => { f with left := true }
  | '+' => { f with plus := true }
  | ' ' => { f with blank := true }
  | '#' => { f with alternate := true }
  | _ => { f with zero := true }

/-- A character that stands for a flag. -/
def isFlag (c : Char) : Bool :=
  c == '-' || c == '+' || c == ' ' || c == '#' || c == '0'

/-- A star or a run of digits; `bare` stands for none of them. -/
def takeAmount (bare : Amount) : List Char → Amount × List Char
  | '*' :: rest => (.star, rest)
  | s =>
    let digits := s.takeWhile Text.isDigit
    (if digits.isEmpty then bare else .digits (Text.ofDigits 10 digits), s.dropWhile Text.isDigit)

/-- A point and the precision behind it. -/
def takePrecision : List Char → Amount × List Char
  | '.' :: rest => takeAmount (.digits 0) rest
  | s => (.absent, s)

/-- Drop a size letter. -/
def dropSize : List Char → List Char
  | 'h' :: rest => rest
  | 'l' :: rest => rest
  | 'L' :: rest => rest
  | s => s

/-- A directive behind its percent sign. -/
def takeDirective (s : List Char) : Directive × List Char :=
  let (key, s) := takeNamed s
  let flags := (s.takeWhile isFlag).foldl Flags.set {}
  let (width, s) := takeAmount .absent (s.dropWhile isFlag)
  let (precision, s) := takePrecision s
  match dropSize s with
  | [] => (⟨key, flags, width, precision, none⟩, [])
  | c :: rest => (⟨key, flags, width, precision, some c⟩, rest)

/-! ## Taking a template apart -/

theorem length_takeKey_le (depth : Nat) (s : List Char) :
    (takeKey depth s).2.length ≤ s.length := by
  induction s generalizing depth with
  | nil => simp [takeKey]
  | cons c rest ih =>
    simp only [takeKey]
    split
    · split
      · simp
      · exact Nat.le_succ_of_le (ih _)
    · exact Nat.le_succ_of_le (ih _)

theorem length_takeNamed_le (s : List Char) : (takeNamed s).2.length ≤ s.length := by
  unfold takeNamed
  split
  · next rest =>
    have h := length_takeKey_le 1 rest
    split <;> next heq => rw [heq] at h; exact Nat.le_succ_of_le h
  · exact Nat.le_refl _

theorem length_takeAmount_le (bare : Amount) (s : List Char) :
    (takeAmount bare s).2.length ≤ s.length := by
  unfold takeAmount
  split
  · simp
  · exact (List.dropWhile_sublist _).length_le

theorem length_takePrecision_le (s : List Char) : (takePrecision s).2.length ≤ s.length := by
  unfold takePrecision
  split
  · exact Nat.le_succ_of_le (length_takeAmount_le _ _)
  · exact Nat.le_refl _

theorem length_dropSize_le (s : List Char) : (dropSize s).length ≤ s.length := by
  unfold dropSize
  split <;> simp

/-- What follows a directive is no longer than what follows its percent sign. -/
theorem length_takeDirective_le (s : List Char) : (takeDirective s).2.length ≤ s.length := by
  have h₁ := length_takeNamed_le s
  have h₂ := (List.dropWhile_sublist isFlag (l := (takeNamed s).2)).length_le
  have h₃ := length_takeAmount_le .absent ((takeNamed s).2.dropWhile isFlag)
  have h₄ := length_takePrecision_le (takeAmount .absent ((takeNamed s).2.dropWhile isFlag)).2
  have h₅ := length_dropSize_le
    (takePrecision (takeAmount .absent ((takeNamed s).2.dropWhile isFlag)).2).2
  simp only [takeDirective]
  split
  · simp
  · next heq =>
    rw [heq, List.length_cons] at h₅
    dsimp only
    omega

/-- The parts of the end of a template that is `total` characters long. -/
def partsFrom (total : Nat) : List Char → List Part
  | [] => []
  | '%' :: '%' :: rest => .plain '%' :: partsFrom total rest
  | c :: rest =>
    if c == '%' then
      let cut := takeDirective rest
      .directive cut.1 (total - cut.2.length - 1) :: partsFrom total cut.2
    else .plain c :: partsFrom total rest
termination_by s => s.length
decreasing_by
  · simp only [List.length_cons]
    omega
  · have := length_takeDirective_le rest
    simp only [List.length_cons]
    omega
  · simp

/-- The parts of a template. -/
def parts (template : List Char) : List Part :=
  partsFrom template.length template

end Template

end LoopPainter
