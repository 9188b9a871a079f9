import LoopPainter.Store

/-!
# Changes between stores

What has to be done to a tree of files that looks like one store to make it look like
another: remove files, make directories, write files.  Directories are made from the top
down, and before any file is written.
-/

namespace LoopPainter.Store

/-! ## Places as paths -/

/-- The written path of a place. -/
def Place.text (p : Place) : String :=
  match p.base with
  | .root => "/" ++ "/".intercalate p.names
  | .above levels =>
    match List.replicate levels ".." ++ p.names with
    | [] => "."
    | names => "/".intercalate names

/-- The place that names lead to from a place, and all places on the way. -/
def trail (p : Place) : List String → List Place
  | [] => [p]
  | name :: rest => p :: trail (if name == ".." then p.up else p.child name) rest

/-- The place that a path leads to if all its names are directories, and all places on the
way. -/
def places (path : Path) : List Place :=
  trail (if path.root = .relative then .here else ⟨.root, []⟩) path.parts

/-! ## Changes -/

/-- A change of a tree of files. -/
inductive Change where
  | remove (place : Place)
  | makeDirectory (place : Place)
  | write (place : Place) (content : Content)
  deriving DecidableEq

/-- The files that are gone. -/
def removals (before after : Store) : List Change :=
  before.nodes.filterMap fun (place, _) =>
    if (after.find? place).isNone then some (.remove place) else none

/-- The directories that are new, those with fewer names first. -/
def newDirectories (before after : Store) : List Change :=
  let found := (after.nodes.filter fun (place, node) =>
    node = .directory && before.find? place != some .directory).map (·.1)
  (found.mergeSort fun p q => p.names.length ≤ q.names.length).map .makeDirectory

/-- The files that are new or have another content. -/
def writes (before after : Store) : List Change :=
  after.nodes.filterMap fun (place, node) =>
    match node with
    | .directory => none
    | .file content =>
      if before.find? place = some node then none else some (.write place content)

/-- The changes from one store to another. -/
def changes (before after : Store) : List Change :=
  removals before after ++ newDirectories before after ++ writes before after

end LoopPainter.Store
