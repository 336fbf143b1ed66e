import StepGlue.Step.Keyword
import StepGlue.Text.LetterCase

/-!
Hints for the body of a method, chosen by the words in its step text.
-/

namespace StepGlue.Hint

open StepGlue.Text

/-- Hint lines for texts that hold one of some words. -/
structure Rule where
  words : List String
  lines : List String

/-- The hints of a category: a heading, rules in order of precedence, and lines for other texts. -/
structure Guide where
  heading : String
  rules : List Rule
  otherwise : List String

def elementById (name : String) (identifier : String) : String :=
  "// WebElement " ++ name ++ " = driver.findElement(By.id(\"" ++ identifier ++ "\"));"

def setupGuide : Guide where
  heading := "// Setup/precondition logic"
  rules :=
    [ ⟨["navigate", "open"], ["// driver.get(\"URL\");"]⟩,
      ⟨["login", "user"], ["// Perform login or user setup"]⟩ ]
  otherwise := ["// Setup test data or initial state"]

def actionGuide : Guide where
  heading := "// Action/interaction logic"
  rules :=
    [ ⟨["click"], [elementById "element" "elementId", "// element.click();"]⟩,
      ⟨["enter", "input"],
        [elementById "inputField" "inputId", "// inputField.sendKeys(\"value\");"]⟩,
      ⟨["select"],
        [ "// Select dropdown = new Select(driver.findElement(By.id(\"selectId\")));",
          "// dropdown.selectByVisibleText(\"optionText\");" ]⟩ ]
  otherwise := ["// Perform the main action"]

def outcomeGuide : Guide where
  heading := "// Verification/assertion logic"
  rules :=
    [ ⟨["should see", "displayed"],
        [ elementById "element" "elementId",
          "// Assert.assertTrue(\"Element should be displayed\", element.isDisplayed());" ]⟩,
      ⟨["text", "contains"],
        [ "// String actualText = driver.findElement(By.id(\"elementId\")).getText();",
          "// Assert.assertTrue(\"Text verification failed\", actualText.contains(\"expectedText\"));" ]⟩ ]
  otherwise := ["// Verify the expected outcome"]

def guide : Category → Guide
  | .setup => setupGuide
  | .action => actionGuide
  | .outcome => outcomeGuide

def occursIn (piece : List Char) : List Char → Bool
  | [] => piece.isEmpty
  | c :: rest => (afterPrefix? piece (c :: rest)).isSome || occursIn piece rest

def Rule.applies (rule : Rule) (lowered : List Char) : Bool :=
  rule.words.any fun word => occursIn word.toList lowered

/-- The hint lines for a step text; letter case plays no part. -/
def lines (category : Category) (text : String) : List String :=
  let lowered := lower text.toList
  (guide category).heading ::
    match (guide category).rules.find? (·.applies lowered) with
    | some rule => rule.lines
    | none => (guide category).otherwise

end StepGlue.Hint
