import LoopPainter.Picture.File

/-!
# The file store

A tree of directories and files around a working directory.  A file holds bytes, or
an image as it is read back.  There are no links, and whatever is there may be read and
written.

A path is walked name by name: every name but the last must be a directory, `..`
leads to the directory above, and a name may have at most 255 bytes.  What lies
outside the working directory is taken to be an empty tree of directories.

Where the working directory lies is not known.  So a path from the root, one from the
working directory and one that leaves it by `..` are taken never to meet, although a file
of a real store can have paths of all three kinds.

Actions may fail after a part of their work, so an action gives back the store also
when it fails.
-/

namespace LoopPainter

/-- What a file holds. -/
inductive Content where
  | bytes (data : ByteArray)
  | image (file : ImageFile)

instance : DecidableEq Content
  | .bytes a, .bytes b => decidable_of_iff (a.data = b.data) (by simp [ByteArray.ext_iff])
  | .image a, .image b => decidable_of_iff (a = b) (by simp)
  | .bytes _, .image _ => isFalse nofun
  | .image _, .bytes _ => isFalse nofun

/-- An entry of the store. -/
inductive Node where
  | directory
  | file (content : Content)
  deriving DecidableEq

namespace Store

/-- Where the names of a place are counted from: the root of all paths, or the working
directory or one of those above it. -/
inductive Base where
  | root
  | above (levels : Nat)
  deriving DecidableEq, Repr

/-- A position in the tree, without `..`. -/
structure Place where
  base : Base
  names : List String
  deriving DecidableEq, Repr

/-- Why an action on the store failed. -/
inductive Cause where
  | notFound
  | notDirectory
  | isDirectory
  | alreadyExists
  | nameTooLong
  | busy
  | nullByte
  deriving DecidableEq, Repr

/-- A failure and the path that was given to the failing action. -/
structure Fault where
  cause : Cause
  path : String
  deriving DecidableEq, Repr

end Store

/-- The entries below the working directory, which itself is always there. -/
structure Store where
  nodes : List (Store.Place × Node) := []

namespace Store

/-- An action that gives an answer or fails, and changes the store either way. -/
abbrev Action (α : Type) : Type :=
  ExceptT Fault (StateM Store) α

/-! ## Places -/

/-- The working directory. -/
def Place.here : Place := ⟨.above 0, []⟩

/-- The directory above a place. -/
def Place.up (p : Place) : Place :=
  match p.names, p.base with
  | [], .root => p
  | [], .above n => ⟨.above (n + 1), []⟩
  | names, base => ⟨base, names.dropLast⟩

/-- The place with a name in a directory. -/
def Place.child (p : Place) (name : String) : Place :=
  ⟨p.base, p.names ++ [name]⟩

/-- The entry at a place. -/
def find? (s : Store) (p : Place) : Option Node :=
  if p.names.isEmpty then some .directory else s.nodes.lookup p

/-- The store with an entry at a place, in place of the one that was there. -/
def insert (s : Store) (p : Place) (n : Node) : Store :=
  ⟨(p, n) :: s.nodes.filter fun e => e.1 != p⟩

/-- The store without the entry at a place. -/
def erase (s : Store) (p : Place) : Store :=
  ⟨s.nodes.filter fun e => e.1 != p⟩

theorem lookup_filter_ne (p q : Place) (nodes : List (Place × Node)) :
    (nodes.filter fun e => e.1 != p).lookup q = if q = p then none else nodes.lookup q := by
  induction nodes with
  | nil => simp
  | cons entry rest ih => grind

/-- An entry is found at the place where it was put, and all others stay. -/
@[simp] theorem find?_insert (s : Store) (p q : Place) (n : Node) (hp : p.names ≠ []) :
    (s.insert p n).find? q = if q = p then some n else s.find? q := by
  have := lookup_filter_ne p q s.nodes
  grind [find?, insert]

/-- An entry that was taken away is gone, and all others stay. -/
@[simp] theorem find?_erase (s : Store) (p q : Place) (hp : p.names ≠ []) :
    (s.erase p).find? q = if q = p then none else s.find? q := by
  by_cases hq : q = p <;> simp [find?, erase, lookup_filter_ne, hq, hp]

/-- The largest number of bytes of a name. -/
def maxName : Nat := 255

/-- The number of bytes that a whole path must stay below. -/
def pathLimit : Nat := 4096

/-- Follow names from a place.  Only directories can be entered; the last place need not
exist. -/
def walk (s : Store) : Place → List String → Except Cause Place
  | p, [] => .ok p
  | p, name :: rest =>
    match s.find? p with
    | none => .error .notFound
    | some (.file _) => .error .notDirectory
    | some .directory =>
      if name == ".." then walk s p.up rest
      else if maxName < name.utf8ByteSize then .error .nameTooLong
      else walk s (p.child name) rest

/-- The place that a path leads to. -/
def locate (s : Store) (path : Path) : Except Cause Place :=
  let text := path.toString
  if text.toList.contains '\x00' then .error .nullByte
  else if pathLimit ≤ text.utf8ByteSize then .error .nameTooLong
  else walk s (if path.root = .relative then .here else ⟨.root, []⟩) path.parts

/-- The place and the entry, if any, that a path leads to. -/
def lookup (s : Store) (path : Path) : Except Cause (Place × Option Node) :=
  (s.locate path).map fun p => (p, s.find? p)

/-! ## Questions -/

/-- The entry at a path.  A path that leads nowhere has none; one that is too long is a
failure. -/
def stat (s : Store) (path : Path) : Except Fault (Option Node) :=
  match s.lookup path with
  | .ok (_, n) => .ok n
  | .error .nameTooLong => .error ⟨.nameTooLong, path.toString⟩
  | .error _ => .ok none

/-- Whether something is at a path. -/
def pathExists (path : Path) : Action Bool := do
  return (← (stat (← get) path : Except Fault (Option Node))).isSome

/-- Whether a directory is at a path. -/
def isDirectory (path : Path) : Action Bool := do
  return (← (stat (← get) path : Except Fault (Option Node))) == some .directory

/-- The content of the file at a path. -/
def content (s : Store) (path : Path) : Except Fault Content :=
  match s.lookup path with
  | .ok (_, some (.file content)) => .ok content
  | .ok (_, some .directory) => .error ⟨.isDirectory, path.toString⟩
  | .ok (_, none) => .error ⟨.notFound, path.toString⟩
  | .error cause => .error ⟨cause, path.toString⟩

/-! ## Actions -/

/-- Fail on a path. -/
def fail {α : Type} (path : Path) (cause : Cause) : Action α :=
  throw ⟨cause, path.toString⟩

/-- The place and entry of a path, or the failure to reach it. -/
def reach (path : Path) : Action (Place × Option Node) := do
  match (← get).lookup path with
  | .ok r => return r
  | .error cause => fail path cause

/-- Make one directory in an existing one. -/
def makeDirectory (path : Path) : Action Unit := do
  match ← reach path with
  | (_, some _) => fail path .alreadyExists
  | (place, none) => modify fun s => s.insert place .directory

/-- Accept the failure to make a directory if a directory is there already. -/
def unlessDirectory (path : Path) (fault : Fault) : Action Unit := do
  if fault.cause = .nullByte then throw fault
  if !(← isDirectory path) then throw fault

/-- Make the directory with the given root and names, last name first, and those above it
that are missing. -/
def ensureNames (root : Path.Root) : List String → Action Unit
  | [] =>
    let path : Path := ⟨root, []⟩
    tryCatch (makeDirectory path) fun fault => unlessDirectory path fault
  | name :: above =>
    let path : Path := ⟨root, (name :: above).reverse⟩
    tryCatch (makeDirectory path) fun fault =>
      if fault.cause = .notFound then do
        ensureNames root above
        tryCatch (makeDirectory path) fun fault =>
          if fault.cause = .notFound then throw fault else unlessDirectory path fault
      else unlessDirectory path fault

/-- Make a directory and those above it, as far as they are missing. -/
def ensureDirectory (path : Path) : Action Unit :=
  ensureNames path.root path.parts.reverse

/-- Make the file at a path hold a content. -/
def writeFile (path : Path) (content : Content) : Action Unit := do
  match ← reach path with
  | (_, some .directory) => fail path .isDirectory
  | (place, _) => modify fun s => s.insert place (.file content)

/-- The content of the file at a path. -/
def readFile (path : Path) : Action Content := do
  match (← get).content path with
  | .ok content => return content
  | .error fault => throw fault

/-- Remove the file at a path. -/
def removeFile (path : Path) : Action Unit := do
  match ← reach path with
  | (_, some .directory) => fail path .isDirectory
  | (_, none) => fail path .notFound
  | (place, some (.file _)) => modify fun s => s.erase place

/-- Where a place is after the entry at `origin` and all below it have moved to `target`. -/
def Place.moved (origin target p : Place) : Place :=
  if p.base = origin.base && origin.names.isPrefixOf p.names then
    ⟨target.base, target.names ++ p.names.drop origin.names.length⟩
  else p

/-- Move the entry at one path, with all below it, to another path at which nothing is. -/
def moveEntry (source target : Path) : Action Unit := do
  match ← reach source, ← reach target with
  | (_, none), _ => fail source .notFound
  | _, (_, some _) => fail source .alreadyExists
  | (origin, some _), (place, none) =>
    modify fun s => ⟨s.nodes.map fun (p, n) => (Place.moved origin place p, n)⟩

/-- A path whose last step is no name of its own: a root, the working directory or `..`. -/
def isUnnamed (path : Path) : Bool :=
  path.parts.isEmpty || path.name == ".."

/-- Move the file at one path to another, in place of a file that is there. -/
def moveFile (source target : Path) : Action Unit := do
  if isUnnamed source then fail source .busy
  match ← reach source with
  | (_, none) => fail source .notFound
  | (_, some .directory) => fail source .isDirectory
  | (origin, some (.file content)) =>
    match (← get).lookup target with
    | .error cause => fail source cause
    | .ok (place, node) =>
      if isUnnamed target then fail source .busy
      else if node = some .directory then fail source .isDirectory
      else modify fun s => (s.erase origin).insert place (.file content)

end Store

end LoopPainter
