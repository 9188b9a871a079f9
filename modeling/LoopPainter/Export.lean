import LoopPainter.Store.Atomic

/-!
# Exporting drawings

A canvas is saved as a still image, frames as an animation that loops forever and shows
every frame for the same time.

A still is saved with opacity, except under the two suffixes of a format that has none
(`plainSuffixes`).
-/

namespace LoopPainter

/-- Why a drawing was not exported. -/
inductive ExportFault where
  | noFrames
  | save (fault : SaveFault)
  deriving DecidableEq, Repr

/-- The text of a complaint about a file that was not written. -/
def SaveFault.message : SaveFault → String
  | .store fault => Store.Fault.path fault
  | .path fault => fault.message
  | .notAPicture => "the samples have no shape of a picture"
  | .numberTooLong => Text.tooLongMessage
  | .bytesNotWritten target _ => "Failed to write " ++ target ++ " atomically"
  | .imageNotWritten target _ => "Failed to save image " ++ target ++ " atomically"

/-- The text of a complaint. -/
def ExportFault.message : ExportFault → String
  | .noFrames => "Cannot write an animation with no frames"
  | .save fault => fault.message

/-- An action that exports a drawing. -/
abbrev ExportAction (α : Type) : Type :=
  ExceptT ExportFault (StateM Store) α

namespace Export

/-- The suffixes of files that are written without opacity. -/
def plainSuffixes : List String := [".jpg", ".jpeg"]

/-- The picture of a canvas for the file at a path. -/
def pictureFor (path : Path) (c : Canvas) : Picture :=
  if plainSuffixes.contains path.lowerSuffix then .rgb c.toRgb else .rgba c.toRgba

/-- Save a canvas as a still image. -/
def saveCanvas (path : Path) (c : Canvas) : ExportAction Unit :=
  (Store.saveImage path {} (pictureFor path c) []).adapt .save

/-- What the writer of an animation is told. -/
def animationOptions (interval : Int) : ImageOptions where
  format := some "GIF"
  duration := some interval
  loop := some 0

/-- Save frames as an animation. -/
def saveAnimation (path : Path) (interval : Int) : List (Raster Rgb) → ExportAction Unit
  | [] => throw .noFrames
  | first :: rest =>
    (Store.saveImage path (animationOptions interval) (.rgb first) (rest.map .rgb)).adapt .save

end Export

end LoopPainter
