import LoopPainter.Journal

/-!
# Warnings and crashes

A warning of a library is logged once warnings are captured, and printed until then.  A
crash is logged with the highest of the named levels, except that an interruption by the
user is printed.
-/

namespace LoopPainter.Journal

/-- A warning of a library. -/
structure Warning where
  file : String
  line : Int
  category : String := "UserWarning"
  text : String
  deriving DecidableEq, Repr

/-- The text of a warning. -/
def Warning.display (w : Warning) : String :=
  w.file ++ ":" ++ Text.intString w.line ++ ": " ++ w.category ++ ": " ++ w.text ++ "\n"

/-- When and where records are made. -/
structure Clock where
  /-- The time in seconds since the start of 1970. -/
  now : Binary64
  /-- The number of the process. -/
  process : Nat

/-- Give a warning. -/
def warn (clock : Clock) (w : Warning) (j : Journal) (s : Store) : Journal × Store × String :=
  if j.capturing then
    log clock.process
      { created := clock.now, level := Level.warning, source := warningSource,
        template := w.display }
      { j with captured := true } s
  else (j, s, w.display)

/-- The source of the reports of crashes. -/
def crashSource : String := "cfrs.utils.logging_config"

/-- Report a crash. -/
def report (clock : Clock) (c : Crash) (j : Journal) (s : Store) : Journal × Store × String :=
  if c.interrupt then (j, s, c.display ++ "\n")
  else
    log clock.process
      { created := clock.now, level := Level.critical, source := crashSource,
        template := "Uncaught exception", crash := some c } j s

end LoopPainter.Journal
