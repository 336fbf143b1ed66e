/-!
Faults of untyped input: what is wrong, and where.
-/

namespace StepGlue

namespace Fault

inductive Kind where
  | missing
  | malformedJson
  | notText
  | notList
  | notMap
  | notObject
  | notTag
  | notTruthValue
  | unreadableTruthValue
  | unreadableInteger
  | integerTooLong
  | outOfRange
deriving DecidableEq, Repr

def Kind.tag : Kind → String
  | missing => "missing"
  | malformedJson => "json_invalid"
  | notText => "string_type"
  | notList => "list_type"
  | notMap => "dict_type"
  | notObject => "model_attributes_type"
  | notTag => "enum"
  | notTruthValue => "bool_type"
  | unreadableTruthValue => "bool_parsing"
  | unreadableInteger => "int_parsing"
  | integerTooLong => "int_parsing_size"
  | outOfRange => "value_error"

/-- A step on the way into a value. -/
inductive Place where
  | member (name : String)
  | item (index : Nat)
deriving DecidableEq, Repr

end Fault

structure Fault where
  kind : Fault.Kind
  place : List Fault.Place
deriving DecidableEq, Repr

end StepGlue
