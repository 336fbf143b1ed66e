import StepGlue.Config
import StepGlue.Method.Rendered

/-!
The class around the step methods: package, imports, fields and constructor before them, and two
helper methods after them. Configured names are taken as they are.
-/

namespace StepGlue

structure ClassSource where
  header : String
  methods : List Method
  footer : String

namespace ClassSource

def defaultImports : List String :=
  [ "io.cucumber.java.en.Given",
    "io.cucumber.java.en.When",
    "io.cucumber.java.en.Then",
    "org.openqa.selenium.WebDriver",
    "org.openqa.selenium.WebElement",
    "org.openqa.selenium.By",
    "org.openqa.selenium.support.ui.Select",
    "org.openqa.selenium.support.ui.WebDriverWait",
    "org.testng.Assert",
    "java.time.Duration" ]

/-- What tells imports apart; truth values count as the numbers one and zero. -/
inductive ImportKey where
  | nothing
  | number (n : Int)
  /-- A number that is no integer. -/
  | real (x : Double)
  | name (s : String)
deriving DecidableEq, Repr

def importKey : Json → Except Failure ImportKey
  | .null => .ok .nothing
  | .bool b => .ok (.number (if b then 1 else 0))
  | .int n => .ok (.number n)
  | .real x => .ok (match x.toInt? with
    | some n => .number n
    | none => .real x)
  | .str s => .ok (.name s)
  | .arr _ => .error (.notComparable "list")
  | .obj _ => .error (.notComparable "dict")

/-- Adds the imports that are new, in order, to some that are told apart by their keys. -/
def addImports (merged : List (ImportKey × Json)) :
    List Json → Except Failure (List (ImportKey × Json))
  | [] => .ok merged
  | item :: rest => do
    let key ← importKey item
    addImports (if merged.any (·.1 == key) then merged else merged ++ [(key, item)]) rest

/-- The default imports, then the further ones that are new. -/
def mergeImports (further : List Json) : Except Failure (List Json) := do
  let merged ← addImports (defaultImports.map fun s => (.name s, .str s)) further
  return merged.map (·.2)

/-- The names that a header holds, as texts. -/
structure Names where
  /-- The package, unless there is none. -/
  package : Option String
  imports : List String
  base : Option String
  className : String
deriving DecidableEq, Repr

namespace Names

variable [Machine]

/-- The package as a text; a name that is not given stands for none. -/
def packageOf (name : Json) : Except Failure (Option String) :=
  if name.isGiven then name.display.map some else .ok none

def ofConfig (config : Config) : Except Failure Names := do
  let package ← packageOf config.packageName
  let imports ← (← mergeImports config.imports).mapM Json.display
  let base ← config.baseTestClass.mapM Json.display
  return { package, imports, base, className := ← config.className.display }

end Names

def headerLines (names : Names) : List String :=
  (match names.package with
    | some package => ["package " ++ package ++ ";", ""]
    | none => []) ++
    names.imports.map (fun item => "import " ++ item ++ ";") ++
    [ "",
      "/**",
      " * Cucumber Step Definitions",
      " * Generated by step-definition-service",
      " * ",
      " * This class contains step definitions for Cucumber scenarios.",
      " * Each method represents a step that can be used in feature files.",
      " */",
      "public class " ++ names.className ++
        (match names.base with
          | some base => " extends " ++ base
          | none => "") ++ " \x7b",
      "",
      "    private WebDriver driver;",
      "    private WebDriverWait wait;",
      "",
      "    public " ++ names.className ++ "() \x7b",
      "        // Initialize WebDriver and WebDriverWait if needed",
      "        // this.driver = DriverManager.getDriver();",
      "        // this.wait = new WebDriverWait(driver, Duration.ofSeconds(10));",
      "    \x7d",
      "" ]

def footerLines : List String :=
  [ "    /**",
    "     * Helper method to find element with wait",
    "     */",
    "    private WebElement findElementWithWait(By locator) \x7b",
    "        return wait.until(driver -> driver.findElement(locator));",
    "    \x7d",
    "",
    "    /**",
    "     * Helper method to verify element is displayed",
    "     */",
    "    private boolean isElementDisplayed(By locator) \x7b",
    "        try \x7b",
    "            return driver.findElement(locator).isDisplayed();",
    "        \x7d catch (Exception e) \x7b",
    "            return false;",
    "        \x7d",
    "    \x7d",
    "\x7d" ]

/-- The text of lines that each end in a line feed. -/
def lineText (lines : List String) : String :=
  "\n".intercalate lines ++ "\n"

def assemble [Machine] (config : Config) (methods : List Method) : Except Failure ClassSource := do
  let names ← Names.ofConfig config
  return { header := lineText (headerLines names), methods, footer := lineText footerLines }

/-- The methods, each followed by a blank line. -/
def body (methods : List Method) : String :=
  if methods.isEmpty then "" else "\n\n".intercalate (methods.map Method.text) ++ "\n\n"

def text (source : ClassSource) : String :=
  source.header ++ body source.methods ++ source.footer

end ClassSource

end StepGlue
