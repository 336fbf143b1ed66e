import StepGlue.Json.Display

/-!
The configuration of a generation. Its values come from untyped settings and are kept as they were
given; layers of settings are put over one another field by field.
-/

namespace StepGlue

inductive Framework where
  | cucumber
  | testng
  | junit
deriving DecidableEq, Repr

namespace Framework

def all : List Framework := [cucumber, testng, junit]

def tag : Framework → String
  | cucumber => "cucumber"
  | testng => "testng"
  | junit => "junit"

def ofTag? (text : String) : Option Framework :=
  all.find? fun framework => framework.tag == text

variable [Machine] in
def ofJson : Json → Except Failure Framework
  | .str text => match ofTag? text with
    | some framework => .ok framework
    | none => .error (.unknownFramework (Text.StandIns.quoted text))
  | v => do throw (.unknownFramework (← v.nested))

end Framework

/-- The elements of a value that stands for a list: a string has its characters, an object its
names. -/
def Json.elements : Json → Except Failure (List Json)
  | .arr items => .ok items
  | .str s => .ok (s.toList.map fun c => .str (String.ofList [c]))
  | .obj members => .ok (members.map fun member => .str member.1)
  | .int _ => .error (.notAList "int")
  | .bool _ => .error (.notAList "bool")
  | .real _ => .error (.notAList "float")
  | .null => .error (.notAList "NoneType")

structure Config where
  packageName : Json
  className : Json
  baseTestClass : Option Json
  imports : List Json
  annotations : List Json
  framework : Framework

namespace Config

open Json

variable [Machine]

def default : Config where
  packageName := .str "com.example.stepdefinitions"
  className := .str "StepDefinitions"
  baseTestClass := none
  imports := []
  annotations := []
  framework := .cucumber

/-- The elements of a list setting, or those of the layer below. -/
def listOver (values : Object) (name : String) (below : List Json) : Except Failure (List Json) :=
  match values.given? name with
  | some v => v.elements
  | none => .ok below

/-- The framework setting; a value that is not given counts as absent. -/
def frameworkOver (values : Object) (below : Framework) : Except Failure Framework :=
  match values.get? "framework" with
  | some v => if v.isGiven then do Framework.ofJson (.str (← v.display)) else .ok below
  | none => .ok below

def layer (below : Config) (values : Object) : Except Failure Config := do
  let imports ← listOver values "imports" below.imports
  let annotations ← listOver values "annotations" below.annotations
  let framework ← frameworkOver values below.framework
  return {
    packageName := (values.given? "packageName").getD below.packageName
    className := (values.given? "className").getD below.className
    baseTestClass := match values.given? "baseTestClass" with
      | some v => if v.isGiven then some v else none
      | none => below.baseTestClass
    imports
    annotations
    framework }

def toObject (config : Config) : Object :=
  [ ("packageName", config.packageName),
    ("className", config.className),
    ("baseTestClass", config.baseTestClass.getD (.str "")),
    ("imports", .arr config.imports),
    ("annotations", .arr config.annotations),
    ("framework", .str config.framework.tag) ]

end Config

end StepGlue
