import LoopPainter.Store.Atomic
import LoopPainter.Text.Newline
import LoopPainter.Yaml.Builder
import LoopPainter.Yaml.Printer

/-!
# YAML files

A YAML file is a file of UTF-8 text with one YAML document.

A document is read by recursion, and so is a deep value when it is shown.  How deep this can
go depends on the machine and on what else is running, so the texts for which there is room
are a parameter, `fits`.
-/

namespace LoopPainter.Yaml

/-- Why a file has no value. -/
inductive FileFault where
  | missing (path : String)
  | store (fault : Store.Fault)
  | notText
  | content (path : String) (fault : Fault)
  deriving DecidableEq, Repr

/-- The text of a complaint about a missing file or a malformed one. -/
def FileFault.message : FileFault → String
  | .missing path => "YAML file not found: " ++ path
  | .store fault => fault.path
  | .notText => "the file is not UTF-8 text"
  | .content path .malformed => "Failed to parse YAML file " ++ path
  | .content _ fault => fault.message

/-- The text that a file holds. -/
def textOf : Content → Except FileFault String
  | .bytes data =>
    match String.fromUTF8? data with
    | some text => .ok (String.ofList (Text.unifyBreaks text.toList))
    | none => .error .notText
  | .image _ => .error .notText

/-- The value of the YAML file at a path.  There is room for the texts that satisfy `fits`. -/
def loadFile (s : Store) (path : Path) (fits : String → Bool := fun _ => true) :
    Except FileFault Datum := do
  let node ← (s.stat path).mapError .store
  if node.isNone then throw (.missing path.toString)
  let text ← textOf (← (s.content path).mapError .store)
  (if fits text then load text else .error .tooDeep).mapError (.content path.toString)

/-- Write a value as a YAML file, whole.  The text is made first. -/
def saveFile (path : Path) (d : Datum) : Store.SaveAction Unit :=
  if d.hasLongNumber then throw .numberTooLong
  else Store.saveBytes path (String.ofList (dump d)).toUTF8

end LoopPainter.Yaml
