import LoopPainter.Store

/-!
# Writing files whole

A file is first written under a temporary name beside its target and then moved onto
it, so that nobody ever sees half a file at the target.  If anything fails after the
temporary file was opened, the target is as it was and the temporary file is removed
again; this removal can itself fail, and then that is the failure reported.

The temporary name of plain bytes is the target with `.tmp` appended; that of an image
keeps the suffix of the target last, since the suffix decides the format.
-/

namespace LoopPainter

/-- What went wrong while a file was written. -/
inductive WriteCause where
  | store (cause : Store.Cause)
  | image (fault : ImageFault)
  deriving DecidableEq, Repr

/-- Why a file was not written. -/
inductive SaveFault where
  | store (fault : Store.Fault)
  | path (fault : Path.Fault)
  | notAPicture
  | numberTooLong
  | bytesNotWritten (path : String) (cause : WriteCause)
  | imageNotWritten (path : String) (cause : WriteCause)
  deriving DecidableEq, Repr

namespace Store

/-- An action that writes a file whole. -/
abbrev SaveAction (α : Type) : Type :=
  ExceptT SaveFault (StateM Store) α

/-- An action with its failures put in a wider type. -/
def widen {ε α : Type} (f : Fault → ε) (a : Action α) : ExceptT ε (StateM Store) α :=
  a.adapt f

/-- Remove a temporary file if there is one. -/
def discard (temporary : Path) : Action Unit := do
  if ← pathExists temporary then removeFile temporary

/-- Run an action that fills a temporary file, and discard the file if the action
fails. -/
def guarded (temporary : Path) (fault : WriteCause → SaveFault)
    (a : ExceptT WriteCause (StateM Store) Unit) : SaveAction Unit :=
  ExceptT.lift a.run >>= fun
    | .ok () => pure ()
    | .error cause => do
      widen .store (discard temporary)
      throw (fault cause)

/-- The failure of an action on the store as the cause of a failed write. -/
def causeOf (f : Fault) : WriteCause :=
  .store f.cause

/-- The temporary name for plain bytes. -/
def temporaryForBytes (path : Path) (ending : String := ".tmp") : Except Path.Fault Path :=
  path.withSuffix (path.suffix ++ ending)

/-- The temporary name for an image. -/
def temporaryForImage (path : Path) : Except Path.Fault Path :=
  path.withName (path.stem ++ ".tmp" ++ path.suffix)

/-- Give the answer of a computation on paths. -/
def ofPath {α : Type} : Except Path.Fault α → SaveAction α
  | .ok a => pure a
  | .error e => throw (.path e)

/-- Write bytes whole, making the directories above the target. -/
def saveBytes (path : Path) (data : ByteArray) (ending : String := ".tmp") : SaveAction Unit := do
  widen .store (ensureDirectory path.parent)
  let temporary ← ofPath (temporaryForBytes path ending)
  guarded temporary (.bytesNotWritten path.toString) do
    widen causeOf (writeFile temporary (.bytes data))
    widen causeOf (moveFile temporary path)

/-- Write an image whole; the directories above the target are there. -/
def replaceImage (path : Path) (options : ImageOptions) (first : Picture)
    (rest : List Picture) : SaveAction Unit := do
  let temporary ← ofPath (temporaryForImage path)
  guarded temporary (.imageNotWritten path.toString) do
    let format ← ofImage (ImageFile.formatFor options temporary)
    widen causeOf (writeFile temporary (.bytes ByteArray.empty))
    let file ← ofImage (ImageFile.encode format options first rest)
    widen causeOf (writeFile temporary (.image file))
    widen causeOf (moveFile temporary path)
where
  ofImage {α : Type} : Except ImageFault α → ExceptT WriteCause (StateM Store) α
    | .ok a => pure a
    | .error e => throw (.image e)

/-- Write an image whole, making the directories above the target. -/
def saveImage (path : Path) (options : ImageOptions) (first : Picture)
    (rest : List Picture) : SaveAction Unit := do
  widen .store (ensureDirectory path.parent)
  replaceImage path options first rest

/-- Write samples as an image whole, making the directories above the target. -/
def saveSamples (path : Path) (options : ImageOptions) (first : Samples)
    (rest : List Samples) : SaveAction Unit := do
  widen .store (ensureDirectory path.parent)
  let picture ← toPicture first
  let others ← rest.mapM toPicture
  replaceImage path options picture others
where
  toPicture (s : Samples) : SaveAction Picture :=
    match s.toPicture? with
    | some p => pure p
    | none => throw .notAPicture

end Store

end LoopPainter
