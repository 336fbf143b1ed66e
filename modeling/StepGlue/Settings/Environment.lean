import StepGlue.Config
import StepGlue.Failure
import StepGlue.Json.Reader
import StepGlue.Settings.LenientInteger
import StepGlue.Settings.LogLevel
import StepGlue.Workspace.Path

/-!
The settings of the service, read from environment variables. Names are matched without regard to
letter case, and every fault is reported in the order of the settings.
-/

namespace StepGlue

structure Settings where
  appName : String
  apiPrefix : String
  host : String
  listenPort : Int
  logLevel : String
  settingsFile : Path
  workspaceRoot : Option String
  packageName : String
  className : String
  baseTestClass : Option String
  imports : List String
  framework : Framework
  stepFileName : String
  indentSize : Int

namespace Settings

open StepGlue.Text

/-- The variables of an environment; of several with one name the last counts. -/
abbrev Environment := List (String × String)

inductive Error where
  /-- A variable that is not JSON where JSON is expected. -/
  | notJson (setting : String)
  | failure (failure : Failure)
  | faults (faults : List Fault)
deriving DecidableEq, Repr

def notJsonMessage (setting : String) : String :=
  "error parsing value for field \"" ++ setting ++ "\" from source \"EnvSettingsSource\""

def lookup? (env : Environment) (setting : String) : Option String :=
  (env.reverse.find? fun entry =>
    lower entry.1.toList == ("stepgen_" ++ setting).toList).map Prod.snd

def text (env : Environment) (setting default : String) : String :=
  (lookup? env setting).getD default

abbrev Reading := StateM (List Fault)

def report (kind : Fault.Kind) (place : List Fault.Place) : Reading Unit :=
  modify (· ++ [{ kind, place }])

def integer (env : Environment) (setting : String) (default : Int) (fits : Int → Bool) :
    Reading Int := do
  match (lookup? env setting).map LenientInteger.parse with
  | none => return default
  | some (.error kind) => do
    report kind [.member setting]
    return default
  | some (.ok n) => do
    unless fits n do report .outOfRange [.member setting]
    return n

def reportItems (setting : String) (index : Nat) : List Json → Reading Unit
  | [] => return
  | .str _ :: rest => reportItems setting (index + 1) rest
  | _ :: rest => do
    report .notText [.member setting, .item index]
    reportItems setting (index + 1) rest

def strings (setting : String) : Json → Reading (List String)
  | .arr items => do
    reportItems setting 0 items
    return items.filterMap Json.asStr?
  | _ => do
    report .notList [.member setting]
    return []

def frameworkTag (env : Environment) (setting : String) : Reading Framework := do
  match (lookup? env setting).map Framework.ofTag? with
  | none => return .cucumber
  | some (some framework) => return framework
  | some none => do
    report .notTag [.member setting]
    return .cucumber

def defaultFile (home : Path) : Path :=
  { home with parts := home.parts ++ [".stepgen", "settings.json"] }

def reading (home : Path) (env : Environment) (imports : Json) : Reading Settings := do
  let listenPort ← integer env "port" 8000 fun _ => true
  let imports ← strings "default_imports" imports
  let framework ← frameworkTag env "default_framework"
  let indentSize ← integer env "indent_size" 4 fun n => 1 ≤ n
  return {
    appName := text env "app_name" "step-definition-service"
    apiPrefix := text env "api_prefix" "/api/v1"
    host := text env "host" "127.0.0.1"
    listenPort
    logLevel := text env "log_level" "INFO"
    settingsFile := ((lookup? env "settings_file").map Path.ofString).getD (defaultFile home)
    workspaceRoot := lookup? env "workspace_root"
    packageName := text env "default_package_name" "com.example.stepdefinitions"
    className := text env "default_class_name" "StepDefinitions"
    baseTestClass := lookup? env "default_base_test_class"
    imports
    framework
    stepFileName := text env "default_step_file_name" "StepDefinitions.java"
    indentSize }

variable [Machine] in
def ofEnvironment (home : Path) (env : Environment) : Except Error Settings := do
  let imports ← match (lookup? env "default_imports").map Json.read with
    | none => pure (.arr [])
    | some (.ok v) => pure v
    | some (.error (.tooDeep container)) => throw (.failure (.tooDeep (.reading container)))
    | some (.error _) => throw (.notJson "default_imports")
  let (settings, faults) := (reading home env imports).run []
  if faults.isEmpty then return settings else throw (.faults faults)

def defaults (settings : Settings) : Config where
  packageName := .str settings.packageName
  className := .str settings.className
  baseTestClass := if settings.baseTestClass.getD "" = "" then none
    else settings.baseTestClass.map .str
  imports := settings.imports.map .str
  annotations := []
  framework := settings.framework

structure Launch where
  application : String
  host : String
  listenPort : Int
  reload : Bool
  logLevel : String
deriving DecidableEq, Repr

def launch (settings : Settings) : Launch where
  application := "app.main:app"
  host := settings.host
  listenPort := settings.listenPort
  reload := false
  logLevel := String.ofList (lower settings.logLevel.toList)

end Settings

end StepGlue
