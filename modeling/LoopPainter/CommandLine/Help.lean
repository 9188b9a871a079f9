import LoopPainter.CommandLine.Flag

/-!
# Help

The usage and the help are laid out for a terminal of eighty columns, of which the last two
stay free.  Words are never broken: a line is filled with as many as fit.
-/

namespace LoopPainter.CommandLine

/-- The name of the program. -/
def program : String := "cfrs"

/-- What the program does. -/
def purpose : String :=
  "Run a CFRS drawing program and save the canvas as an image or GIF"

/-- The columns of a line. -/
def lineWidth : Nat := 78

/-- The column at which the descriptions of arguments start. -/
def helpColumn : Nat := 24

/-- Fill lines of at most `room` columns with words; `line` is the line begun. -/
def fillFrom (room : Nat) (line : String) : List String → List String
  | [] => [line]
  | word :: rest =>
    if line.length + 1 + word.length ≤ room then fillFrom room (line ++ " " ++ word) rest
    else line :: fillFrom room word rest

/-- Fill lines of at most `room` columns with words. -/
def fill (room : Nat) : List String → List String
  | [] => []
  | word :: rest => fillFrom room word rest

/-- The words of a text. -/
def words (text : String) : List String :=
  (splitSpaces text.toList).filterMap fun w =>
    if w.isEmpty then none else some (String.ofList w)
where
  splitSpaces : List Char → List (List Char)
    | [] => [[]]
    | ' ' :: rest => [] :: splitSpaces rest
    | c :: rest =>
      match splitSpaces rest with
      | [] => [[c]]
      | w :: ws => (c :: w) :: ws

/-- A number of spaces. -/
def blanks (n : Nat) : String :=
  String.ofList (List.replicate n ' ')

/-! ## Usage -/

/-- A flag in the usage. -/
def Flag.usage (f : Flag) : String :=
  let name := f.names.headD ""
  if f.takesValue then "[" ++ name ++ " " ++ f.placeholder ++ "]" else "[" ++ name ++ "]"

/-- The usage: the flags, and on a line of their own the positional arguments. -/
def usage : String :=
  let start := "usage: " ++ program ++ " "
  let room := lineWidth - start.length
  let lines := fill room (flags.map Flag.usage) ++
    fill room (positionals.map fun p => "[" ++ p.name ++ "]")
  start ++ ("\n" ++ blanks start.length).intercalate lines ++ "\n"

/-! ## Help -/

/-- An argument and its description. -/
def entry (title description : String) : List String :=
  let head := "  " ++ title
  let lines := (fill (lineWidth - helpColumn) (words description)).map (blanks helpColumn ++ ·)
  if head.length + 2 ≤ helpColumn then
    match lines with
    | [] => [head]
    | first :: rest => (head ++ (first.drop head.length).toString) :: rest
  else head :: lines

/-- A flag in the help, under all its names. -/
def Flag.heading (f : Flag) : String :=
  ", ".intercalate (f.names.map fun n => if f.takesValue then n ++ " " ++ f.placeholder else n)

/-- The help. -/
def helpText : String :=
  usage ++ "\n" ++ purpose ++ "\n\npositional arguments:\n" ++
    lines (positionals.flatMap fun p => entry p.name p.help) ++ "\noptions:\n" ++
    lines (flags.flatMap fun f => entry f.heading f.help)
where
  lines (ls : List String) : String :=
    "".intercalate (ls.map (· ++ "\n"))

end LoopPainter.CommandLine
