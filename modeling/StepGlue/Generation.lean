import StepGlue.ClassSource
import StepGlue.Indentation
import StepGlue.Step.Line

/-!
Generating the class for the steps among some lines.
-/

namespace StepGlue

structure Generation where
  code : String
  steps : List Step
  methods : List Method
  /-- Step lines that are not steps, because their text does not stand on one line. -/
  skippedLines : List String

namespace Generation

variable [Machine]

def ofLines (config : Config) (indentSize : Int) (lines : List String) :
    Except Failure Generation := do
  let stepLines := StepLine.classify lines
  let steps := stepLines.filterMap Step.parse?
  let methods := Method.renderAll Registry.empty steps
  let source ← ClassSource.assemble config methods
  return {
    code := ← Indentation.format indentSize source.text
    steps
    methods
    skippedLines := stepLines.filter fun line => (Step.parse? line).isNone }

def ofText (config : Config) (indentSize : Int) (text : String) : Except Failure Generation :=
  ofLines config indentSize (Text.splitLines text)

def methodNames (generation : Generation) : List String :=
  generation.methods.map Method.name

end Generation

end StepGlue
