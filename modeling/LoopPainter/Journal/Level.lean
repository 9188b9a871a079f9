import LoopPainter.Text.Digits
import LoopPainter.Text.LetterCase

/-!
# Levels

The level of a record says how much it matters; any whole number is a level, and six of them
have names.  Two of the six also have a second name, which can be read but is never written.
-/

namespace LoopPainter.Journal

/-- How much a record matters. -/
abbrev Level : Type := Int

namespace Level

/-- No level: a source without a level of its own takes that of the source above it. -/
def notSet : Level := 0

/-- Of use while looking for a fault. -/
def debug : Level := 10

/-- The normal course of things. -/
def info : Level := 20

/-- Something may be amiss. -/
def warning : Level := 30

/-- Something was not done. -/
def error : Level := 40

/-- The program cannot go on. -/
def critical : Level := 50

/-- The levels with a name. -/
def named : List (Level × String) :=
  [(notSet, "NOTSET"), (debug, "DEBUG"), (info, "INFO"), (warning, "WARNING"),
    (error, "ERROR"), (critical, "CRITICAL")]

/-- Names that can be read besides those that are written. -/
def aliases : List (Level × String) :=
  [(warning, "WARN"), (critical, "FATAL")]

/-- The text of a level. -/
def name (l : Level) : String :=
  (named.lookup l).getD ("Level " ++ Text.intString l)

/-- The level with a name, in any letter case. -/
def ofName? (s : String) : Option Level :=
  ((named ++ aliases).find? fun entry => entry.2 == Text.upperString s).map (·.1)

end Level

end LoopPainter.Journal
