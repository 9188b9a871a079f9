import LoopPainter.CommandLine.Flag
import LoopPainter.Datum

/-!
# Reading the command line

Words are first told apart: flags, words that look like flags but are none, two dashes, and
all others.  A flag may be cut short as long as only one flag starts that way; its value may
be joined to it, by `=` or, behind a short flag, directly.  Two dashes end the flags.  A
word that looks like a negative number or holds a space is no flag.

The two positional arguments are taken from the first run of words that belong to no flag,
both of them at once: later words are left over, and so is what is no flag.
-/

namespace LoopPainter.CommandLine

/-- What is wrong with a command line. -/
inductive Fault where
  | ambiguous (word : String) (names : List String)
  | ignoredValue (flag : Flag) (value : String)
  | noValue (flag : Flag)
  | notWhole (flag : Flag) (value : String)
  | notChoice (flag : Flag) (value : String) (words : List String)
  | leftOver (words : List String)
  deriving DecidableEq, Repr

/-- The text of a complaint. -/
def Fault.message : Fault → String
  | .ambiguous word names =>
    "ambiguous option: " ++ word ++ " could match " ++ ", ".intercalate names
  | .ignoredValue flag value =>
    about flag ++ "ignored explicit argument " ++ Text.quotedString value
  | .noValue flag => about flag ++ "expected one argument"
  | .notWhole flag value => about flag ++ "invalid int value: " ++ Text.quotedString value
  | .notChoice flag value words =>
    about flag ++ "invalid choice: " ++ Text.quotedString value ++ " (choose from " ++
      ", ".intercalate (words.map Text.quotedString) ++ ")"
  | .leftOver words => "unrecognized arguments: " ++ " ".intercalate words
where
  about (flag : Flag) : String := "argument " ++ flag.title ++ ": "

/-! ## Telling words apart -/

/-- A word of the command line. -/
inductive Mark where
  | dashes
  | plain (word : String)
  | flag (flag : Flag) (name : String) (value : Option String)
  | unknown (word : String)
  deriving DecidableEq, Repr

/-- A decimal digit of any script. -/
def isDecimal (c : Char) : Bool :=
  (Text.digitValue? c).isSome

/-- A text without the line feed at its end. -/
def withoutBreak (s : List Char) : List Char :=
  if s.getLast? == some '\n' then s.dropLast else s

/-- A minus sign and digits, perhaps with a point before the last of them. -/
def isNegativeNumber : List Char → Bool
  | '-' :: rest =>
    let s := withoutBreak rest
    match s.dropWhile isDecimal with
    | [] => !s.isEmpty
    | '.' :: places => !places.isEmpty && places.all isDecimal
    | _ => false
  | _ => false

/-- Split at the first equals sign. -/
def splitEquals (s : List Char) : Option (List Char × List Char) :=
  match s.span (· != '=') with
  | (front, _ :: value) => some (front, value)
  | (_, []) => none

/-- The flags that a word starting with a dash may stand for, each with the value that is
joined to it. -/
def candidates (word : List Char) : List Mark :=
  match word with
  | '-' :: '-' :: _ =>
    let (front, value) :=
      match splitEquals word with
      | some (front, value) => (front, some (String.ofList value))
      | none => (word, none)
    namedFlags.filterMap fun (name, f) =>
      if front.isPrefixOf name.toList then some (.flag f name value) else none
  | _ =>
    namedFlags.filterMap fun (name, f) =>
      if name.toList = word.take 2 then some (.flag f name (some (String.ofList (word.drop 2))))
      else if word.isPrefixOf name.toList then some (.flag f name none)
      else none

/-- The name of a flag. -/
def Mark.name : Mark → String
  | .flag _ name _ => name
  | .dashes => "--"
  | .plain word | .unknown word => word

/-- The flag with exactly the name before the first equals sign. -/
def joined? (word : List Char) : Option Mark := do
  let (front, value) ← splitEquals word
  let f ← named? (String.ofList front)
  return .flag f (String.ofList front) (some (String.ofList value))

/-- What a word before two dashes is. -/
def mark (word : String) : Except Fault Mark :=
  let s := word.toList
  match named? word with
  | some f => .ok (.flag f word none)
  | none =>
    if s.head? != some '-' || s.length = 1 then .ok (.plain word)
    else
      match joined? s with
      | some m => .ok m
      | none =>
        match candidates s with
        | [m] => .ok m
        | [] => .ok (if isNegativeNumber s || s.contains ' ' then .plain word else .unknown word)
        | ms => .error (.ambiguous word (ms.map Mark.name))

/-- What the words of a command line are. -/
def marks : List String → Except Fault (List Mark)
  | [] => .ok []
  | word :: rest =>
    if word = "--" then .ok (.dashes :: rest.map .plain)
    else do
      let m ← mark word
      let ms ← marks rest
      return m :: ms

/-! ## Values -/

/-- The arguments that were given, the last first. -/
structure Arguments where
  given : List (Parameter × Datum) := []

/-- The value of an argument, if it was given. -/
def Arguments.get? (a : Arguments) (p : Parameter) : Option Datum :=
  a.given.lookup p

/-- Give an argument a value. -/
def Arguments.put (a : Arguments) (p : Parameter) (d : Datum) : Arguments :=
  ⟨(p, d) :: a.given⟩

/-- The value that a word has for a flag. -/
def valueOf (f : Flag) (word : String) : Except Fault Datum :=
  match f.kind with
  | .whole =>
    match Text.readInteger? word.toList with
    | some i => .ok (.int i)
    | none => .error (.notWhole f word)
  | .choice words =>
    if words.contains word then .ok (.text word) else .error (.notChoice f word words)
  | _ => .ok (.text word)

/-! ## Reading -/

/-- How far the positional arguments have been taken. -/
inductive Stage where
  | before
  | inOutput
  | inCommand
  | after
  deriving DecidableEq, Repr

/-- What has been read so far. -/
structure Progress where
  arguments : Arguments := {}
  stage : Stage := .before
  /-- The words of the two positional arguments. -/
  output : List String := []
  command : List String := []
  /-- A flag that waits for its value, behind switches that take effect with it. -/
  waiting : Option (List Flag × Flag) := none
  /-- The words that are left over, last first. -/
  leftOver : List String := []

/-- Why reading ends before the last word. -/
inductive Stop where
  | help
  | fault (fault : Fault)
  deriving DecidableEq, Repr

/-- The switches before the last flag of a group of short flags, the last flag, and the
value joined to it. -/
def ungroup (f : Flag) (name : String) (value : Option String) :
    Except Fault (List Flag × Flag × Option String) :=
  match value with
  | none => .ok ([], f, none)
  | some v => expand f (isShort name) v.toList
where
  isShort (name : String) : Bool :=
    name.toList.drop 1 |>.head?.any (· != '-')
  expand (f : Flag) (short : Bool) : List Char → Except Fault (List Flag × Flag × Option String)
    | [] =>
      if f.takesValue then .ok ([], f, some "") else .error (.ignoredValue f "")
    | c :: rest =>
      if f.takesValue then .ok ([], f, some (String.ofList (c :: rest)))
      else
        match named? (String.ofList ['-', c]) with
        | some g =>
          if !short then .error (.ignoredValue f (String.ofList (c :: rest)))
          else if rest.isEmpty then .ok ([f], g, none)
          else (expand g true rest).map fun (fs, last, v) => (f :: fs, last, v)
        | none => .error (.ignoredValue f (String.ofList (c :: rest)))

/-- A flag that takes no value takes effect. -/
def switchOn (p : Progress) (f : Flag) : Except Stop Progress :=
  match f.kind with
  | .help => .error .help
  | _ => .ok { p with arguments := p.arguments.put f.parameter (.bool true) }

/-- A flag and the switches before it take effect with a value. -/
def assign (p : Progress) (switches : List Flag) (f : Flag) (word : String) :
    Except Stop Progress := do
  let p ← switches.foldlM switchOn p
  let d ← (valueOf f word).mapError .fault
  return { p with arguments := p.arguments.put f.parameter d, waiting := none }

/-- Take a flag. -/
def takeFlag (p : Progress) (f : Flag) (name : String) (value : Option String) :
    Except Stop Progress := do
  let p := if p.stage = .before then p else { p with stage := .after }
  let (switches, f, value) ← (ungroup f name value).mapError .fault
  match value with
  | some word => assign p switches f word
  | none =>
    if f.takesValue then return { p with waiting := some (switches, f) }
    else (switches ++ [f]).foldlM switchOn p

/-- Take a word that belongs to no flag. -/
def takePlain (p : Progress) (word : String) : Progress :=
  match p.stage with
  | .before => { p with stage := .inOutput, output := p.output ++ [word] }
  | .inOutput => { p with stage := .inCommand, command := [word] }
  | .inCommand | .after => { p with stage := .after, leftOver := word :: p.leftOver }

/-- Take two dashes. -/
def takeDashes (p : Progress) : Progress :=
  match p.stage with
  | .before | .inOutput => { p with output := p.output ++ ["--"] }
  | .inCommand => { p with command := p.command ++ ["--"] }
  | .after => { p with leftOver := "--" :: p.leftOver }

/-- Take the next word. -/
def take (p : Progress) (m : Mark) : Except Stop Progress :=
  match p.waiting, m with
  | some (switches, f), .plain word => assign p switches f word
  | some (_, f), _ => .error (.fault (.noValue f))
  | none, .plain word => .ok (takePlain p word)
  | none, .dashes => .ok (takeDashes p)
  | none, .flag f name value => takeFlag p f name value
  | none, .unknown word =>
    .ok { p with
      stage := if p.stage = .before then .before else .after, leftOver := word :: p.leftOver }

/-- Give a positional argument the word that is left of its words without two dashes. -/
def putPositional (p : Parameter) (words : List String) (a : Arguments) : Arguments :=
  match (words.erase "--").head? with
  | some word => a.put p (.text word)
  | none => a

/-- The arguments once all words are taken. -/
def Progress.finish (p : Progress) : Except Stop Arguments :=
  match p.waiting with
  | some (_, f) => .error (.fault (.noValue f))
  | none =>
    if p.leftOver.isEmpty then
      .ok (putPositional .command p.command (putPositional .output p.output p.arguments))
    else .error (.fault (.leftOver p.leftOver.reverse))

/-- The arguments of a command line. -/
def read (words : List String) : Except Stop Arguments := do
  let ms ← (marks words).mapError .fault
  (← ms.foldlM take {}).finish

end LoopPainter.CommandLine
