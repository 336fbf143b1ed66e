import StepGlue.Json.Reader
import StepGlue.Text.Unencodable
import StepGlue.Text.Utf8
import StepGlue.Workspace.FileError

/-!
Why an operation on settings, files or commands fails.
-/

namespace StepGlue

/-- What goes down one level after the other. -/
inductive Activity where
  | reading (container : Json.Container)
  | showing
  /-- Copying or writing values, or making directories. -/
  | descending
deriving DecidableEq, Repr

def Activity.description : Activity → String
  | reading .array => "decoding a JSON array from a unicode string"
  | reading .object => "decoding a JSON object from a unicode string"
  | showing => "getting the repr of an object"
  | descending => "calling a Python object"

inductive Failure where
  | file (error : FileError)
  | nulInPath
  | noPath
  | outsideRoot (path root : String)
  | undecodable (error : Text.Utf8.DecodeError)
  | unencodable (error : Text.Unencodable)
  /-- An integer with too many digits, which are counted where it is read. -/
  | integerTooLong (digits : Option Nat)
  | tooDeep (activity : Activity)
  /-- An indentation whose width is no machine integer. -/
  | widthOutOfRange
  /-- An indentation that does not fit into memory. -/
  | outOfMemory
  /-- The framework as the message shows it. -/
  | unknownFramework (shown : String)
  /-- A value of the named type where a list is expected. -/
  | notAList (typeName : String)
  /-- A value of the named type where values are told apart. -/
  | notComparable (typeName : String)
  | unknownAction (name : String)
  | unknownLevel (name : String)
  /-- A request that the editor does not offer to answer. -/
  | notOffered
deriving DecidableEq, Repr

namespace Failure

variable [Text.StandIns] in
def message : Failure → String
  | file error => error.message
  | nulInPath => "embedded null byte"
  | noPath => "Путь к файлу не задан"
  | outsideRoot path root => "Путь " ++ path ++ " выходит за пределы " ++ root
  | undecodable error => error.message
  | unencodable error => error.message
  | integerTooLong digits =>
    "Exceeds the limit (4300 digits) for integer string conversion" ++
      (match digits with
        | some count => ": value has " ++ toString count ++ " digits"
        | none => "") ++
      "; use sys.set_int_max_str_digits() to increase the limit"
  | tooDeep activity => "maximum recursion depth exceeded while " ++ activity.description
  | widthOutOfRange => "cannot fit 'int' into an index-sized integer"
  | outOfMemory => ""
  | unknownFramework shown => shown ++ " is not a valid TestFramework"
  | notAList typeName => "'" ++ typeName ++ "' object is not iterable"
  | notComparable typeName => "unhashable type: '" ++ typeName ++ "'"
  | unknownAction name => "Unknown quick action: " ++ name
  | unknownLevel name => "Unknown level: " ++ Text.quoted name
  | notOffered => ""

/-- Whether the failure rejects a value, rather than an operation on files, a value's type or its
size. -/
def rejectsValue : Failure → Bool
  | file _ | notAList _ | notComparable _ | notOffered => false
  | tooDeep _ | widthOutOfRange | outOfMemory => false
  | _ => true

def refusesFile : Failure → Bool
  | file _ | noPath | outsideRoot _ _ => true
  | _ => false

end Failure

end StepGlue
