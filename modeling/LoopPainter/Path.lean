import LoopPainter.Text.LetterCase
import LoopPainter.Text.Quoted

/-!
# Paths

A path is a root and a list of names.  Reading drops empty names and `.`, keeps
`..`, and tells three roots apart: none, one slash, and exactly two slashes.  The
path without a root and names is written `.`.

The suffix of a name starts at its last dot, unless that dot is the first or the
last character.
-/

namespace LoopPainter

/-- Where a path starts. -/
inductive Path.Root where
  | relative
  | slash
  | doubleSlash
  deriving DecidableEq, Repr

/-- A root and the names below it. -/
structure Path where
  root : Path.Root
  parts : List String
  deriving DecidableEq, Repr

namespace Path

/-- Why a path with another last name could not be formed. -/
inductive Fault where
  | emptyName (path : String)
  | badSuffix (suffix : String)
  deriving DecidableEq, Repr

/-- The text of a complaint. -/
def Fault.message : Fault → String
  | .emptyName p => "PosixPath(" ++ Text.quotedString p ++ ") has an empty name"
  | .badSuffix s => "Invalid suffix " ++ Text.quotedString s

/-- Cut a text at every slash. -/
def splitSlashes : List Char → List (List Char)
  | [] => [[]]
  | c :: rest =>
    if c == '/' then [] :: splitSlashes rest
    else
      match splitSlashes rest with
      | [] => [[c]]
      | part :: parts => (c :: part) :: parts

/-- The root that a text starts with. -/
def rootOf : List Char → Root
  | '/' :: '/' :: '/' :: _ => .slash
  | '/' :: '/' :: _ => .doubleSlash
  | '/' :: _ => .slash
  | _ => .relative

/-- Read a path. -/
def ofChars (s : List Char) : Path where
  root := rootOf s
  parts := ((splitSlashes s).filter fun part => part != [] && part != ['.']).map String.ofList

/-- Read a path. -/
def ofString (s : String) : Path :=
  ofChars s.toList

/-- The written root. -/
def Root.text : Root → String
  | .relative => ""
  | .slash => "/"
  | .doubleSlash => "//"

/-- The written path. -/
def toString (p : Path) : String :=
  match p.root, p.parts with
  | .relative, [] => "."
  | root, parts => root.text ++ "/".intercalate parts

/-- The last name, empty if there is none. -/
def name (p : Path) : String :=
  p.parts.getLast?.getD ""

/-- The path without its last name. -/
def parent (p : Path) : Path :=
  { p with parts := p.parts.dropLast }

/-- A name cut before the last dot that has characters on both sides. -/
def splitSuffix (name : List Char) : List Char × List Char :=
  let ending := name.reverse.takeWhile (· != '.')
  let front := (name.reverse.dropWhile (· != '.')).reverse.dropLast
  if ending.isEmpty || front.isEmpty || ending.length == name.length then (name, [])
  else (front, '.' :: ending.reverse)

/-- The last dot of the last name and what follows it. -/
def suffix (p : Path) : String :=
  String.ofList (splitSuffix p.name.toList).2

/-- The last name without its suffix. -/
def stem (p : Path) : String :=
  String.ofList (splitSuffix p.name.toList).1

/-- The suffix in lower case. -/
def lowerSuffix (p : Path) : String :=
  Text.lowerString p.suffix

/-- The complaint about a path without a name. -/
def emptyName (p : Path) : Fault :=
  .emptyName p.toString

/-- The path with another last name. -/
def withName (p : Path) (name : String) : Except Fault Path :=
  if p.parts.isEmpty then .error p.emptyName
  else .ok { p with parts := p.parts.dropLast ++ [name] }

/-- A suffix that a path may take: none, or a dot and more without a slash. -/
def isSuffix (suffix : String) : Bool :=
  !suffix.toList.contains '/' && (suffix == "" || (suffix.toList.head? == some '.' && suffix != "."))

/-- The path with another suffix. -/
def withSuffix (p : Path) (suffix : String) : Except Fault Path :=
  if !isSuffix suffix then .error (.badSuffix suffix)
  else p.withName (p.stem ++ suffix)

/-- Remove every `..` together with the name before it, as far as the root or the
start allows. -/
def normalizeParts : List String → List String → List String
  | done, [] => done.reverse
  | done, part :: rest =>
    if part == ".." then
      match done with
      | [] => normalizeParts [".."] rest
      | last :: before =>
        if last == ".." then normalizeParts (".." :: done) rest else normalizeParts before rest
    else normalizeParts (part :: done) rest

/-- The path with every `..` worked out by its names alone. -/
def normalized (p : Path) : Path :=
  { p with parts := normalizeParts [] p.parts }

end Path

end LoopPainter
