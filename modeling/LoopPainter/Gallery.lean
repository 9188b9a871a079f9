import LoopPainter.Canvas

/-!
# Named canvases

A gallery holds canvases under names.  Canvases are values, so a copy is
independent of its source, and a command that acts on one name leaves every other
name alone.  A command that is refused changes nothing.
-/

namespace LoopPainter

/-- Canvases under names, in the order in which the names were first used. -/
structure Gallery where
  canvases : List (String × Canvas) := []

namespace Gallery

/-- An operation on the canvas with a name. -/
inductive Command where
  | make (name : String) (width height : Int) (color : Color)
  | get (name : String) (x y : Int)
  | set (name : String) (x y : Int) (color : Color)
  | fill (name : String) (color : Color)
  | copy (source target : String)
  deriving DecidableEq, Repr

/-- What a command answers. -/
inductive Answer where
  | done
  | cell (color : Color)
  deriving DecidableEq, Repr

/-- Why a command was refused. -/
inductive Fault where
  | unknownName (name : String)
  | canvas (fault : Canvas.Fault)
  deriving DecidableEq, Repr

/-- The canvas under a name. -/
def find? (g : Gallery) (name : String) : Option Canvas :=
  g.canvases.lookup name

/-- Put a canvas under a name. -/
def hangIn (name : String) (canvas : Canvas) : List (String × Canvas) → List (String × Canvas)
  | [] => [(name, canvas)]
  | (n, c) :: rest =>
    if n == name then (n, canvas) :: rest else (n, c) :: hangIn name canvas rest

/-- The gallery with a canvas under a name, in place of the one that was there. -/
def hang (g : Gallery) (name : String) (canvas : Canvas) : Gallery :=
  ⟨hangIn name canvas g.canvases⟩

theorem lookup_hangIn (name other : String) (canvas : Canvas) (cs : List (String × Canvas)) :
    (hangIn name canvas cs).lookup other =
      if other = name then some canvas else cs.lookup other := by
  induction cs with
  | nil => grind [hangIn]
  | cons entry rest ih => grind [hangIn]

/-- Hanging a canvas changes what is under its own name and no other. -/
@[simp] theorem find?_hang (g : Gallery) (name other : String) (canvas : Canvas) :
    (g.hang name canvas).find? other = if other = name then some canvas else g.find? other :=
  lookup_hangIn name other canvas g.canvases

/-- The canvas under a name, or the complaint that there is none. -/
def find (g : Gallery) (name : String) : Except Fault Canvas :=
  match g.find? name with
  | some c => .ok c
  | none => .error (.unknownName name)

/-- Perform a command. -/
def perform (g : Gallery) : Command → Except Fault Answer × Gallery
  | .make name width height color =>
    match Canvas.make width height color with
    | .ok c => (.ok .done, g.hang name c)
    | .error e => (.error (.canvas e), g)
  | .get name x y =>
    match g.find name with
    | .error e => (.error e, g)
    | .ok c =>
      match c.get x y with
      | .ok color => (.ok (.cell color), g)
      | .error e => (.error (.canvas e), g)
  | .set name x y color =>
    match g.find name with
    | .error e => (.error e, g)
    | .ok c =>
      match c.set x y color with
      | .ok c => (.ok .done, g.hang name c)
      | .error e => (.error (.canvas e), g)
  | .fill name color =>
    match g.find name with
    | .error e => (.error e, g)
    | .ok c => (.ok .done, g.hang name (c.fill color))
  | .copy source target =>
    match g.find source with
    | .error e => (.error e, g)
    | .ok c => (.ok .done, g.hang target c)

end Gallery

end LoopPainter
