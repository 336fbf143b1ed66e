import StepGlue.Text.StandIns

/-!
The ways in which the file system refuses an operation.
-/

namespace StepGlue

namespace FileError

inductive Cause where
  | notFound
  | alreadyExists
  | notADirectory
  | isADirectory
  | nameTooLong
deriving DecidableEq, Repr

def Cause.number : Cause → Nat
  | notFound => 2
  | alreadyExists => 17
  | notADirectory => 20
  | isADirectory => 21
  | nameTooLong => 36

def Cause.description : Cause → String
  | notFound => "No such file or directory"
  | alreadyExists => "File exists"
  | notADirectory => "Not a directory"
  | isADirectory => "Is a directory"
  | nameTooLong => "File name too long"

end FileError

/-- A refused operation, with the path it was given. -/
structure FileError where
  cause : FileError.Cause
  path : String
deriving DecidableEq, Repr

variable [Text.StandIns] in
def FileError.message (e : FileError) : String :=
  "[Errno " ++ toString e.cause.number ++ "] " ++ e.cause.description ++ ": " ++
    Text.StandIns.quoted e.path

end StepGlue
