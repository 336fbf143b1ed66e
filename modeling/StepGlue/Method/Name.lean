import StepGlue.Text.Lines

/-!
Method names made from step texts: the Latin letters and digits of the text in camel case.
-/

namespace StepGlue.MethodName

open StepGlue.Text

def isKept (c : Char) : Bool :=
  c.isAlphanum || isBlank c

def lowerWord (word : List Char) : List Char :=
  word.map Char.toLower

def capitalized : List Char → List Char
  | [] => []
  | c :: rest => c.toUpper :: lowerWord rest

/-- The first word in small letters, every other one capitalized. -/
def camelCase : List (List Char) → List Char
  | [] => []
  | word :: others => lowerWord word ++ others.flatMap capitalized

def fallback : String := "generatedStep"

def ofText (text : String) : String :=
  match (camelCase (words (text.toList.filter isKept))).dropWhile Char.isDigit with
  | [] => fallback
  | name => String.ofList name

end StepGlue.MethodName
