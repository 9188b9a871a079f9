import LoopPainter.Session

/-!
# The paths of a session

A session reads and writes no other paths than these: the job file and the log file, which
the command line names, and the image and the summary of the job, each with the temporary
file beside it.
-/

namespace LoopPainter.Session

/-- The paths that a command line names, apart from those of the job. -/
def argumentPaths (words : List String) : List Path :=
  match CommandLine.read words with
  | .ok a => ([a.get? .job, a.get? .logFile].filterMap textOf?).map Path.ofString
  | .error _ => []

/-- A path and its temporary one. -/
def withTemporary (temporary : Path → Except Path.Fault Path) (path : Path) : List Path :=
  match temporary path with
  | .ok t => [path, t]
  | .error _ => [path]

/-- The paths that a job writes. -/
def jobPaths (j : Job) : List Path :=
  withTemporary Store.temporaryForImage j.output.val ++
    (j.summary.elim [] (withTemporary Store.temporaryForBytes ·))

/-- The paths that the job of a command line writes, given the store with the job file. -/
def writtenPaths (words : List String) (store : Store) : List Path :=
  match CommandLine.read words with
  | .error _ => []
  | .ok a =>
    match jobOf a store with
    | .ok j => jobPaths j
    | .error _ => []

end LoopPainter.Session
