import LoopPainter.Job.Reader
import LoopPainter.Yaml.File

/-!
# Job files

A job file is a YAML file that holds the mapping of a job.
-/

namespace LoopPainter.Job

/-- Why a file holds no mapping. -/
inductive FileFault where
  | missing (path : String)
  | yaml (fault : Yaml.FileFault)
  | empty (path : String)
  | notMapping (typeName path : String)
  deriving DecidableEq, Repr

/-- The text of a complaint. -/
def FileFault.message : FileFault → String
  | .missing path => "Job config not found: " ++ path
  | .yaml fault => fault.message
  | .empty path => "Empty job config: " ++ path
  | .notMapping typeName path =>
    "Job config must be a mapping, got " ++ typeName ++ ": " ++ path

/-- The mapping that a file holds. -/
def loadPairs (s : Store) (path : Path) (fits : String → Bool := fun _ => true) :
    Except FileFault (List (Datum × Datum)) := do
  let node ← (s.stat path).mapError (.yaml ∘ .store)
  if node.isNone then throw (.missing path.toString)
  match ← (Yaml.loadFile s path fits).mapError .yaml with
  | .null => throw (.empty path.toString)
  | .map pairs => return pairs
  | d => throw (.notMapping d.typeName path.toString)

/-- Why a file gives no job. -/
inductive LoadFault where
  | file (fault : FileFault)
  | job (fault : Fault)
  deriving DecidableEq, Repr

/-- The job that a file describes. -/
def load (s : Store) (path : Path) (fits : String → Bool := fun _ => true) :
    Except LoadFault Job := do
  let pairs ← (loadPairs s path fits).mapError .file
  match ofPairs pairs with
  | .ok job => return job
  | .error (.invalid _ issues) => throw (.job (.invalid (some path.toString) issues))
  | .error fault => throw (.job fault)

end LoopPainter.Job
