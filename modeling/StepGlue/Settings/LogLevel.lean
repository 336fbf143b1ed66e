import StepGlue.Failure
import StepGlue.Text.LetterCase

/-!
Log levels by name or number.
-/

namespace StepGlue.LogLevel

open StepGlue.Text

def levels : List (String × Int) :=
  [ ("CRITICAL", 50), ("FATAL", 50), ("ERROR", 40), ("WARN", 30), ("WARNING", 30), ("INFO", 20),
    ("DEBUG", 10), ("NOTSET", 0) ]

/-- The number of a level; letter case plays no part in its name. -/
def ofName (name : String) : Except Failure Int :=
  let capital := String.ofList (upper name.toList)
  match levels.lookup capital with
  | some level => .ok level
  | none => .error (.unknownLevel capital)

/-- The levels of the service and of the three loggers of its server, which are all one. -/
structure Setup where
  service : Int
  server : List Int
deriving DecidableEq, Repr

def Setup.uniform (level : Int) : Setup where
  service := level
  server := [level, level, level]

end StepGlue.LogLevel
