import StepGlue.Method.Hint
import StepGlue.Method.Registry
import StepGlue.Step.Basic

/-!
The source text of a step method: comment, annotation, signature and a body to be filled in.
-/

namespace StepGlue

def stringLiteral (text : String) : String :=
  String.ofList
    ('"' :: (text.toList.flatMap fun c => if c = '\\' || c = '"' then ['\\', c] else [c]) ++ ['"'])

structure Method where
  step : Step
  name : String
  text : String
deriving DecidableEq, Repr

namespace Method

def comment (step : Step) : List String :=
  ["    /**", "     * Step: " ++ step.line] ++
    (if step.parameters.isEmpty then []
      else ["     * Parameters: " ++ toString step.parameters.length]) ++
    ["     */"]

/-- The notes in the body, blank lines among them. -/
def notes (step : Step) : List String :=
  ["// TODO: Implement step logic for: " ++ step.text] ++
    (if step.parameters.isEmpty then []
      else "// Available parameters:" :: step.declarations.map ("//   " ++ ·)) ++
    Hint.lines step.category step.text ++
    [ "",
      "// Add assertions for verification",
      "// Assert.assertTrue(\"Step verification failed\", condition);",
      "" ]

def noteLine (note : String) : String :=
  if note = "" then "" else "            " ++ note

def failureMessage (step : Step) : String :=
  "Failed to execute step: " ++ step.text

def lines (step : Step) (name : String) : List String :=
  comment step ++
    [ "    " ++ step.annotation,
      "    public void " ++ name ++ "(" ++ ", ".intercalate step.declarations ++ ") \x7b",
      "        try \x7b" ] ++
    (notes step).map noteLine ++
    [ "        \x7d catch (Exception e) \x7b",
      "            throw new RuntimeException(" ++ stringLiteral (failureMessage step) ++ ", e);",
      "        \x7d",
      "    \x7d" ]

/-- Renders a step under a name that the registry had free. -/
def render (step : Step) (registry : Registry) : Method × Registry :=
  let (name, registry) := registry.reserve step.methodName
  ({ step, name, text := "\n".intercalate (lines step name) }, registry)

/-- Renders steps in order, each under a name of its own. -/
def renderAll (registry : Registry) : List Step → List Method
  | [] => []
  | step :: rest =>
    let (method, registry) := render step registry
    method :: renderAll registry rest

end Method

end StepGlue
