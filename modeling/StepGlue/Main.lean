import StepGlue.Json.Printer
import StepGlue.Settings.Environment

/-!
The command line: reads the settings from the environment and prints what the web server is started
with, or what is wrong with them.
-/

namespace StepGlue.Main

def settingNames : List String :=
  [ "app_name", "api_prefix", "host", "port", "log_level", "settings_file", "workspace_root",
    "default_package_name", "default_class_name", "default_base_test_class", "default_imports",
    "default_framework", "default_step_file_name", "indent_size" ]

/-- The variables of a setting that the process has, in small and in capital letters. -/
def environmentOf (setting : String) : IO Settings.Environment := do
  let name := "stepgen_" ++ setting
  let names := [name, String.ofList (Text.upper name.toList)]
  let found ← names.mapM fun name => do return (← IO.getEnv name).map (name, ·)
  return found.filterMap id

/-- The room on a stack of a thousand calls with a few calls under way. -/
def nesting : Nesting where
  read := 979
  written := 980
  copied := 491
  shown := 983
  three_le_copied := by decide
  copied_lt_read := by decide
  copied_lt_written := by decide

/-- A machine that reads some texts, which use no stand-ins. -/
@[reducible] def machineFor (texts : List String) : Machine where
  toStandIns := .ofBlock? (Text.StandIns.blockApartFrom? ("\n".intercalate texts))
  nesting := some nesting
  blanks := none
  newDirectories := 980

variable [Text.StandIns]

def launchLine (launch : Settings.Launch) : String :=
  Json.compact (.obj
    [ ("application", .str launch.application), ("host", .str launch.host),
      ("port", .int launch.listenPort), ("reload", .bool launch.reload),
      ("log_level", .str launch.logLevel) ])

def placeText : Fault.Place → String
  | .member name => name
  | .item index => toString index

def faultText (fault : Fault) : String :=
  ".".intercalate (fault.place.map placeText) ++ ": " ++ fault.kind.tag

def errorText : Settings.Error → String
  | .notJson setting => Settings.notJsonMessage setting
  | .failure e => e.message
  | .faults faults => "\n".intercalate (faults.map faultText)

end StepGlue.Main

def main : IO UInt32 := do
  let env := (← StepGlue.Main.settingNames.mapM StepGlue.Main.environmentOf).flatten
  let _ := StepGlue.Main.machineFor (env.map Prod.snd)
  match StepGlue.Settings.ofEnvironment (StepGlue.Path.ofString "") env with
  | .ok settings => do
    IO.println (StepGlue.Main.launchLine settings.launch)
    return 0
  | .error e => do
    IO.eprintln (StepGlue.Main.errorText e)
    return 1
