import StepGlue.Session.Outcome

/-!
The commands that an editor's user gives: generating step definitions, creating a file of them,
configuring, and asking about the service.
-/

namespace StepGlue

namespace QuickAction

inductive Name where
  | generate
  | createFile
  | configure
  | about
deriving DecidableEq, Repr

def all : List Name := [.generate, .createFile, .configure, .about]

def Name.word : Name → String
  | .generate => "generate"
  | .createFile => "createFile"
  | .configure => "configure"
  | .about => "about"

def Name.label : Name → String
  | .generate => "Generate Step Definitions"
  | .createFile => "Create Step Definition File"
  | .configure => "Configure Settings"
  | .about => "About"

def Name.description : Name → String
  | .generate => "Generate step definitions from current file or selection"
  | .createFile => "Create a new step definition file"
  | .configure => "Configure generation settings"
  | .about => "View service information"

def ofWord? (word : String) : Option Name :=
  all.find? fun name => name.word == word

end QuickAction

namespace Command

open Json (Object)

variable [Machine]

def version : String := "0.1.0"

def aboutText : String :=
  "\n".intercalate
    [ "Cucumber Step Definition Generator",
      "",
      "Version: " ++ version,
      "",
      "Features:",
      "- Generate step definitions from Cucumber steps",
      "- Support for parameterized steps",
      "- Configurable package and class names",
      "- Code formatting",
      "- Quick actions" ]

def sampleText : String :=
  "\n".intercalate
    [ "Given I am on the homepage",
      "When I click on the login button",
      "Then I should see the login form" ]

def defaultContent : Command String := do
  return (← generateCode sampleText []).code

def createFile (content : Option String) : Command FileOutcome := do
  let content ← match content with
    | some content => pure content
    | none => defaultContent
  match ← prompt "fileName" (some (← get).session.stepFileName) with
  | none | some "" => return { status := .cancelled, targetPath := none, message := none }
  | some name =>
    if ← writeFile name content then
      let _ ← notify ("Step definition file created: " ++ name) {}
      return { status := .created, targetPath := some name, message := none }
    else
      let message := "Failed to create file: " ++ name
      let _ ← notify message { level := "error" }
      return { status := .failed, targetPath := some name, message := some message }

def configure : Command ConfigureOutcome := do
  let config ← currentConfig []
  let ask (key : String) (value : Json) : Command (Option Json) := do
    match (← get).host.answers.get? key with
    | none => return some value
    | some _ => return (← prompt key none).map .str
  match ← ask "packageName" config.packageName with
  | none => return { status := .cancelled, config }
  | some packageName =>
    match ← ask "className" config.className with
    | none => return { status := .cancelled, config }
    | some className =>
      let baseTestClass ← ask "baseTestClass" (config.baseTestClass.getD (.str ""))
      let _ ← storing fun store files now => store.update files now
        [ ("packageName", packageName), ("className", className),
          ("baseTestClass", baseTestClass.getD (.str "")) ]
      let _ ← notify "Configuration updated successfully!" {}
      return { status := .updated, config := ← currentConfig [] }

/-- The text to work on and a note on where it comes from. -/
def chosenText (selectionOnly : Bool) (document selection : Option String) : String × String :=
  if selectionOnly || selection.isSome then
    let text := Text.trim (selection.getD "").toList
    (String.ofList text, " (" ++ toString (max 1 (Text.lineCount text)) ++ " lines selected)")
  else (document.getD "", " (entire file)")

def followUps : List String := ["Create File", "View Output", "Configure"]

/-- Asks whether to go on with a document that does not look like a feature. -/
def confirmsNonFeature : Command Bool := do
  let answer ← notify "This doesn't appear to be a Cucumber feature file. Continue anyway?"
    { key := some "continueNonFeature", level := "warning", choices := ["Yes", "No"] }
  return answer == some "Yes"

def follow (code : String) (choice : Option String) : Command (Option FileOutcome) := do
  match choice with
  | some "Create File" => return some (← createFile (some code))
  | some "View Output" => do
    mapHost fun h => h.showPreview code "java"
    return none
  | some "Configure" => do
    let _ ← configure
    return none
  | _ => return none

def generateFrom (text selectionInfo : String) (overrides : Object) : Command GenerateOutcome := do
  let generation ← generateCode text overrides
  if generation.methods.isEmpty then
    let _ ← notify
      ("No valid Cucumber steps found" ++ selectionInfo ++
        ". Make sure your steps start with Given, When, Then, And or But.")
      { level := "warning" }
    return .without .noSteps (some selectionInfo)
  mapHost fun h => h.setClipboard generation.code
  let followUp ← notify
    ("Generated " ++ toString generation.methods.length ++ " step definition(s)" ++ selectionInfo ++
      " and copied to clipboard!")
    { key := some "followUp", choices := followUps }
  let file ← follow generation.code followUp
  return {
    status := .generated
    selectionInfo := some selectionInfo
    generation := some generation
    followUp
    file }

def generate (selectionOnly : Bool) (overrides : Object) : Command GenerateOutcome := do
  let host := (← get).host
  let document := host.documentText
  let selection := host.selection
  if document.isNone && selection.isNone then
    let _ ← notify "No active document found. Please open a Cucumber feature file."
      { level := "error" }
    return .without .noDocument none
  let sample := if document.getD "" = "" then selection.getD "" else document.getD ""
  unless StepLine.looksLikeFeature host.documentName sample do
    unless ← confirmsNonFeature do
      return .without .cancelled none
  let (text, selectionInfo) := chosenText selectionOnly document selection
  if (Text.trim text.toList).isEmpty then
    let _ ← notify "No content to process." { level := "warning" }
    return .without .empty (some selectionInfo)
  generateFrom text selectionInfo overrides

def about : Command String := do
  let _ ← notify aboutText {}
  return aboutText

def runQuickAction (name : String) : Command QuickOutcome := do
  match QuickAction.ofWord? name with
  | some .generate => return .generate (← generate false [])
  | some .createFile => return .createFile (← createFile none)
  | some .configure => return .configure (← configure)
  | some .about => return .about (← about)
  | none => throw (.unknownAction name)

end Command

end StepGlue
