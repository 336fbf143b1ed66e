import StepGlue.Failure
import StepGlue.Json.Printer
import StepGlue.Machine

/-!
The form of a JSON value that messages and code show. A value that goes too deep and an integer with
too many digits have none.
-/

namespace StepGlue.Json

open StepGlue.Text

variable [StandIns]

mutual

/-- The form inside another value: strings are quoted. Values stand inside one another as long as
there is `room`. -/
def nestedWithin (room : Option Nat) (v : Json) : Except Failure String :=
  if room = some 0 then .error (.tooDeep .showing)
  else match v with
    | null => .ok "None"
    | bool b => .ok (if b then "True" else "False")
    | int n => if (int n).hasShortIntegers then .ok (toString n) else .error (.integerTooLong none)
    | real x => .ok (realText "nan" "inf" x)
    | str s => .ok (StandIns.quoted s)
    | arr vs => do return "[" ++ ", ".intercalate (← nestedItems (room.map (· - 1)) vs) ++ "]"
    | obj members => do
      return "\x7b" ++ ", ".intercalate (← nestedMembers (room.map (· - 1)) members) ++ "\x7d"

def nestedItems (room : Option Nat) : List Json → Except Failure (List String)
  | [] => .ok []
  | v :: vs => do return (← nestedWithin room v) :: (← nestedItems room vs)

def nestedMembers (room : Option Nat) : List (String × Json) → Except Failure (List String)
  | [] => .ok []
  | (name, v) :: rest => do
    let shown ← nestedWithin room v
    return (StandIns.quoted name ++ ": " ++ shown) :: (← nestedMembers room rest)

end

end StepGlue.Json

namespace StepGlue.Json

variable [Machine]

def nested (v : Json) : Except Failure String :=
  v.nestedWithin (Machine.limit Nesting.shown)

/-- A string stands for itself. -/
def display : Json → Except Failure String
  | str s => .ok s
  | v => v.nested

end StepGlue.Json
