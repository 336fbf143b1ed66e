import StepGlue.Step.Segment

/-!
The match pattern of a step: its literal text with metacharacters escaped, and a capture group for
each slot.
-/

namespace StepGlue.Pattern

def isMeta (c : Char) : Bool :=
  "\\.^$*+?\x7b\x7d[]|()".toList.contains c

def escape (text : List Char) : List Char :=
  text.flatMap fun c => if isMeta c then ['\\', c] else [c]

def ofSegment : Segment → List Char
  | .literal text => escape text
  | .slot kind _ => kind.capture.toList

def ofSegments (segments : List Segment) : String :=
  String.ofList (segments.flatMap ofSegment)

def anchored (pattern : String) : String :=
  "^" ++ pattern ++ "$"

end StepGlue.Pattern
