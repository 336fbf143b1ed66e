import StepGlue.Step.Keyword
import StepGlue.Text.LetterCase
import StepGlue.Workspace.Path

/-!
Step lines among the lines of a document. Comments, headings and table rows start with no keyword,
so they are no step lines.
-/

namespace StepGlue.StepLine

open StepGlue.Text

def isStepLine (line : String) : Bool :=
  (Keyword.split? line.toList).isSome

/-- Puts `Given` and a single space for a leading `And` or `But` with its blanks. -/
def normalize (line : String) : String :=
  match Keyword.split? line.toList with
  | some (.and, body) | some (.but, body) => "Given " ++ String.ofList body
  | _ => line

/-- The distinct step lines among `lines`, trimmed and normalized, by first occurrence. -/
def classify (lines : List String) : List String :=
  ((lines.map fun line => String.ofList (trim line.toList)).filter isStepLine
    |>.map normalize).eraseDups

/-- The step lines among `lines`, some of which may be missing. -/
def classifyPresent (lines : List (Option String)) : List String :=
  classify (lines.map fun line => line.getD "")

/-- The words at the start of a line that mark the text of a feature. -/
def featureWords : List String :=
  ["Feature:", "Scenario:", "Given", "When", "Then", "And"]

/-- Whether a text starts with blanks, line breaks among them, and a feature word. -/
def opensFeature (text : List Char) : Bool :=
  featureWords.any fun word => (afterPrefix? word.toList (trimLeft text)).isSome

def afterLineFeeds : List Char → List (List Char)
  | [] => []
  | c :: rest => if c = '\n' then rest :: afterLineFeeds rest else afterLineFeeds rest

def isFeatureText (text : List Char) : Bool :=
  (text :: afterLineFeeds text).any opensFeature

/-- Whether the last part of a file name ends in `.feature`, in any case. -/
def isFeatureName (fileName : String) : Bool :=
  (".feature".toList).isSuffixOf (lower (Path.ofString fileName).baseName.toList)

/-- A document is taken for a feature by its name or by its text. -/
def looksLikeFeature (fileName : Option String) (text : String) : Bool :=
  fileName.any isFeatureName || isFeatureText text.toList

end StepGlue.StepLine
