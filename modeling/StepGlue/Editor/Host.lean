import StepGlue.Json.Display
import StepGlue.Workspace.Root

/-!
The editor that a command runs for, as one request describes it. Answers to questions are given
beforehand, and what the editor would show or store is recorded.
-/

namespace StepGlue

structure Notification where
  message : String
  level : String
  choices : List String
  /-- The choice that was made, if any. -/
  selected : Option String
deriving DecidableEq, Repr

structure WrittenFile where
  path : String
  success : Bool
  error : Option String
deriving DecidableEq, Repr

structure Host where
  documentText : Option String
  selectionText : Option String
  documentName : Option String
  workspace : Option Workspace
  /-- The answers by question; null cancels, and a question without answer takes its default. -/
  answers : Json.Object
  clipboard : Option String
  preview : Option String
  previewLanguage : Option String
  notifications : List Notification
  writtenFiles : List WrittenFile

namespace Host

variable [Machine]

def ofRequest (documentText selectionText documentName : Option String)
    (workspace : Option Workspace) (answers : Json.Object) : Host where
  documentText
  selectionText
  documentName
  workspace
  answers
  clipboard := none
  preview := none
  previewLanguage := none
  notifications := []
  writtenFiles := []

/-- The workspace at a path; an empty path stands for none. -/
def workspaceAt (t : FileTree) (path : Option String) : Except Failure (Option Workspace) :=
  match path with
  | none | some "" => .ok none
  | some path => (Workspace.ofPath t path).map some

/-- The selected text; an empty selection is none. -/
def selection (h : Host) : Option String :=
  h.selectionText.filter (· != "")

def prompt (h : Host) (key : String) (default : Option String) : Except Failure (Option String) :=
  match h.answers.get? key with
  | none => .ok default
  | some .null => .ok none
  | some answer => answer.display.map some

structure NotifyOptions where
  key : Option String := none
  level : String := "info"
  choices : List String := []

def choice (h : Host) (options : NotifyOptions) : Option String :=
  match options.key with
  | none | some "" => none
  | some key => match h.answers.get? key with
    | some (.str answer) => if options.choices.contains answer then some answer else none
    | _ => none

def notify (h : Host) (message : String) (options : NotifyOptions) : Host :=
  { h with
    notifications := h.notifications ++
      [{ message, level := options.level, choices := options.choices,
         selected := h.choice options }] }

def setClipboard (h : Host) (text : String) : Host :=
  { h with clipboard := some text }

def showPreview (h : Host) (text language : String) : Host :=
  { h with preview := some text, previewLanguage := some language }

def record (h : Host) (file : WrittenFile) : Host :=
  { h with writtenFiles := h.writtenFiles ++ [file] }

/-- Writes a file into the workspace and records whether that succeeded. -/
def writeFile (h : Host) (t : FileTree) (path text : String) :
    Except Failure Bool × Host × FileTree :=
  match h.workspace with
  | none =>
    (.ok false, h.record { path, success := false, error := some "projectRoot is not set" }, t)
  | some workspace =>
    match workspace.write t path text true with
    | (.ok written, t) =>
      (.ok true, h.record { path := written, success := true, error := none }, t)
    | (.error e, t) =>
      if e.refusesFile then
        (.ok false, h.record { path, success := false, error := some e.message }, t)
      else (.error e, h, t)

end Host

end StepGlue
