import StepGlue.Editor.Host
import StepGlue.Generation
import StepGlue.Settings.Store

/-!
A session: the stored settings, the defaults below them, and the commands that read and change them.
-/

namespace StepGlue

structure Session where
  store : Store
  defaults : Config
  stepFileName : String
  indentSize : Int

structure Desk where
  session : Session
  host : Host
  files : FileTree
  now : String

/-- A command that may fail; what it did before that stays. -/
abbrev Command := ExceptT Failure (StateM Desk)

namespace Session

open Json (Object)

variable [Machine]

/-- The defaults under the stored settings under `overrides`. -/
def currentConfig (s : Session) (files : FileTree) (overrides : Object) :
    Except Failure Config := do
  let stored ← s.store.snapshot files
  (← s.defaults.layer stored).layer overrides

def settingNames : List String :=
  ["packageName", "className", "baseTestClass", "imports", "annotations", "framework"]

/-- The members of `values` that are settings and not null, in the order of the settings. -/
def givenSettings (values : Object) : Object :=
  settingNames.filterMap fun name => (values.given? name).map (name, ·)

/-- A setting in the form in which it is stored: lists hold strings. -/
def storedForm : String × Json → Except Failure (String × Json)
  | (name, v) =>
    if name = "imports" || name = "annotations" then do
      let elements ← v.elements
      return (name, .arr ((← elements.mapM Json.display).map .str))
    else .ok (name, v)

def changes (values : Object) : Except Failure Object := do
  match values.given? "framework" with
  | some v => let _ ← Framework.ofJson v
  | none => pure ()
  (givenSettings values).mapM storedForm

def generate (s : Session) (files : FileTree) (text : String) (overrides : Object) :
    Except Failure Generation := do
  Generation.ofText (← s.currentConfig files overrides) s.indentSize text

end Session

namespace Command

open Json (Object)

variable [Machine]

def reading {α : Type} (read : Session → FileTree → Except Failure α) : Command α := do
  let desk ← get
  read desk.session desk.files

/-- Makes a change to the store, and keeps it even if its outcome is a failure. -/
def storing (change : Store → FileTree → String → Except Failure Object × Store × FileTree) :
    Command Object := do
  let desk ← get
  let (stored, store, files) := change desk.session.store desk.files desk.now
  set { desk with session := { desk.session with store }, files }
  stored

def currentConfig (overrides : Object) : Command Config :=
  reading fun s files => s.currentConfig files overrides

def generateCode (text : String) (overrides : Object) : Command Generation :=
  reading fun s files => s.generate files text overrides

/-- Stores the default package and class names unless there are some. -/
def initializeSettings : Command Object := do
  let defaults := (← get).session.defaults
  storing fun store files now => store.addMissing files now
    [("packageName", defaults.packageName), ("className", defaults.className)]

/-- Stores the settings among `values`, and gives the configuration after that. -/
def updateSettings (values : Object) : Command Config := do
  let changes ← Session.changes values
  unless changes.isEmpty do
    let _ ← storing fun store files now => store.update files now changes
  currentConfig []

def mapHost (f : Host → Host) : Command Unit :=
  modify fun desk => { desk with host := f desk.host }

def notify (message : String) (options : Host.NotifyOptions) : Command (Option String) := do
  let host := (← get).host
  mapHost fun h => h.notify message options
  return host.choice options

def prompt (key : String) (default : Option String) : Command (Option String) := do
  (← get).host.prompt key default

def writeFile (path text : String) : Command Bool := do
  let desk ← get
  let (written, host, files) := desk.host.writeFile desk.files path text
  set { desk with host, files }
  written

end Command

end StepGlue
