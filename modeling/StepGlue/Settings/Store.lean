import StepGlue.Json.Printer
import StepGlue.Json.Reader
import StepGlue.Workspace.FileTree

/-!
A store of settings: one section of a JSON document, in a file or in memory. Writing keeps the rest
of the document and notes the time; a document that is no JSON object counts as empty. Sections are
given out as copies, which values cannot be if they go too deep.
-/

namespace StepGlue

structure Store where
  /-- The file that holds the document; without one the section lives in `memory`. -/
  path : Option Path
  sectionName : String
  memory : Json.Object

namespace Store

open Json (Object)

def defaultSection : String := "stepGen"

/-- The member of a document that tells when it was written. -/
def timeMember : String := "updatedAt"

def inMemory (sectionName : String) : Store where
  path := none
  sectionName
  memory := []

variable [Machine]

/-- A store on a file. The directories above it are made, and stay even if one cannot be made. -/
def openFile (t : FileTree) (path : Path) (sectionName : String) :
    Except Failure Store × FileTree :=
  let (made, t) := t.ensureDirectories path.parent
  (made.map fun _ => { path := some path, sectionName, memory := [] }, t)

/-- A store on the file at a path; an absent or empty path stands for memory. -/
def openAt (t : FileTree) (path : Option String) (sectionName : String) :
    Except Failure Store × FileTree :=
  match path with
  | none | some "" => (.ok (inMemory sectionName), t)
  | some path => openFile t (Path.ofString path) sectionName

def objectOfText (text : String) : Except Failure Object :=
  match Json.read text with
  | .ok (.obj o) => .ok o
  | .ok _ | .error .malformed => .ok []
  | .error (.integerTooLong digits) => .error (.integerTooLong (some digits))
  | .error (.tooDeep container) => .error (.tooDeep (.reading container))

def document (s : Store) (t : FileTree) : Except Failure Object :=
  match s.path with
  | none => .ok [(s.sectionName, .obj s.memory)]
  | some path => do
    match ← t.find? path with
    | some (.file (.text text)) => objectOfText text
    | some (.file (.binary _ e)) => throw (.undecodable e)
    | some .directory | none => return []

/-- The section of a document; one that is no object counts as empty. -/
def sectionOf (s : Store) (document : Object) : Object :=
  match document.get? s.sectionName with
  | some (.obj o) => o
  | _ => []

def copy (stored : Object) : Except Failure Object :=
  if Within (Machine.limit Nesting.copied) (Json.obj stored).height then .ok stored
  else .error (.tooDeep .descending)

def snapshot (s : Store) (t : FileTree) : Except Failure Object := do
  copy (s.sectionOf (← s.document t))

def save (s : Store) (t : FileTree) (now : String) (document : Object) :
    Except Failure Unit × Store × FileTree :=
  match s.path with
  | none =>
    match copy (s.sectionOf document) with
    | .error e => (.error e, s, t)
    | .ok memory => (.ok (), { s with memory }, t)
  | some path =>
    let document := Json.obj (document.set timeMember (.str now))
    if Within (Machine.limit Nesting.written) document.height then
      if document.hasShortIntegers then
        let (written, t) := t.writeText path document.layout
        (written, s, t)
      else (.error (.integerTooLong none), s, t)
    else (.error (.tooDeep .descending), s, t)

/-- Sets members of the section and gives the section after that. -/
def update (s : Store) (t : FileTree) (now : String) (values : Object) :
    Except Failure Object × Store × FileTree :=
  match s.document t with
  | .error e => (.error e, s, t)
  | .ok document =>
    let updated := (s.sectionOf document).update values
    match s.save t now (document.set s.sectionName (.obj updated)) with
    | (.error e, s, t) => (.error e, s, t)
    | (.ok (), s, t) => (copy updated, s, t)

/-- Sets the members that the section lacks; nothing is written if it lacks none. -/
def addMissing (s : Store) (t : FileTree) (now : String) (defaults : Object) :
    Except Failure Object × Store × FileTree :=
  match s.snapshot t with
  | .error e => (.error e, s, t)
  | .ok current =>
    let missing := defaults.filter fun member => !current.contains member.1
    if missing.isEmpty then (.ok current, s, t) else s.update t now missing

end Store

end StepGlue
