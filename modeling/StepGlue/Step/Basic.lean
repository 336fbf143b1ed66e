import StepGlue.Method.Name
import StepGlue.Step.Keyword
import StepGlue.Step.Pattern

/-!
Steps: a line with a keyword and a body, the parameters of the body and the pattern that matches it.
-/

namespace StepGlue

structure Step where
  line : String
  category : Category
  text : String
  parameters : List Parameter
  /-- The method name that the text spells, not yet made unique. -/
  methodName : String
  pattern : String
deriving DecidableEq, Repr

namespace Step

open StepGlue.Text

/-- The step that a line with a keyword of some category and a text after it spells. -/
def ofText (line : String) (category : Category) (text : List Char) : Step :=
  let segments := Segment.scan text
  { line
    category
    text := String.ofList text
    parameters := Segment.parameters segments
    methodName := MethodName.ofText (String.ofList text)
    pattern := Pattern.ofSegments segments }

/-- Reads a line as a step. The text after the keyword must stand on one line. -/
def parse? (line : String) : Option Step :=
  let trimmed := trim line.toList
  match Keyword.split? trimmed with
  | some (keyword, text) =>
    if text.contains '\n' then none
    else some (ofText (String.ofList trimmed) keyword.category text)
  | none => none

def anchoredPattern (step : Step) : String :=
  Pattern.anchored step.pattern

def annotation (step : Step) : String :=
  "@" ++ step.category.word ++ "(\"" ++ step.anchoredPattern ++ "\")"

def declarations (step : Step) : List String :=
  step.parameters.map Parameter.declaration

end Step

end StepGlue
