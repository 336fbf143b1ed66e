/-!
The parameters of a step: their kinds, and how each kind is declared and captured.
-/

namespace StepGlue

namespace Parameter

inductive Kind where
  | quoted
  | placeholder
  | number
deriving DecidableEq, Repr

namespace Kind

def all : List Kind := [quoted, placeholder, number]

def tag : Kind → String
  | quoted => "quoted"
  | placeholder => "placeholder"
  | number => "number"

def typeName : Kind → String
  | quoted | placeholder => "String"
  | number => "int"

/-- The capture group that stands for a value in a match pattern. -/
def capture : Kind → String
  | quoted => "\"(.*?)\""
  | placeholder => "(.*)"
  | number => "(\\d+)"

/-- The word that starts the names counted out for the kind. -/
def countedName : Kind → String
  | quoted => "param"
  | placeholder => "arg"
  | number => "number"

end Kind

end Parameter

structure Parameter where
  kind : Parameter.Kind
  name : String
  value : String
deriving DecidableEq, Repr

/-- The declaration in a signature, as in `String param1`. -/
def Parameter.declaration (p : Parameter) : String :=
  p.kind.typeName ++ " " ++ p.name

end StepGlue
