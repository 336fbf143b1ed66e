import StepGlue.Config
import StepGlue.Failure
import StepGlue.Fault
import StepGlue.Json.Encoding
import StepGlue.Json.Reader
import StepGlue.Text.LetterCase
import StepGlue.Text.Lines

/-!
The bodies of requests. A field may be named in camel case or with underscores; all faults are
reported, in the order of the fields.
-/

namespace StepGlue

structure RequestBody where
  bytes : List UInt8
  contentType : String
deriving DecidableEq, Repr

variable [Machine]

/-- The body that sends a text. Its content type must be ASCII. -/
def RequestBody.ofText (text contentType : String) : Except Failure RequestBody :=
  match Text.Charset.ascii.unencodable? contentType with
  | some u => .error (.unencodable u)
  | none => .ok { bytes := text.toUTF8.toList, contentType }

structure EditorPayload where
  documentText : Option String
  selectionText : Option String
  documentName : Option String
  projectRoot : Option String
  answers : Json.Object
  overrides : Json.Object

structure GeneratePayload where
  editor : EditorPayload
  selectionOnly : Bool

structure FilePayload where
  editor : EditorPayload
  fileName : Option String
  content : Option String

structure RenderPayload where
  steps : Option (List String)
  text : Option String
  overrides : Json.Object

namespace Payload

open Json (Object)

structure Finding where
  fault : Fault
  value : Json

/-- A reading that collects faults and goes on. -/
abbrev Reading := StateM (List Finding)

abbrev Place := List Fault.Place

def report (kind : Fault.Kind) (place : Place) (value : Json) : Reading Unit :=
  modify (· ++ [{ fault := { kind, place }, value }])

/-- A field by the first of its names that is there, with its place. -/
def field? (o : Object) (place : Place) : List String → Option (Place × Json)
  | [] => none
  | name :: others =>
    match o.get? name with
    | some v => some (place ++ [.member name], v)
    | none => field? o place others

def text (o : Object) (place : Place) (names : List String) : Reading (Option String) := do
  match field? o place names with
  | none | some (_, .null) => return none
  | some (_, .str s) => return some s
  | some (place, v) => do
    report .notText place v
    return none

def texts (place : Place) (index : Nat) : List Json → Reading (List String)
  | [] => return []
  | .str s :: rest => return s :: (← texts place (index + 1) rest)
  | v :: rest => do
    report .notText (place ++ [.item index]) v
    texts place (index + 1) rest

def textList (o : Object) (place : Place) (names : List String) :
    Reading (Option (List String)) := do
  match field? o place names with
  | none | some (_, .null) => return none
  | some (place, .arr items) => return some (← texts place 0 items)
  | some (place, v) => do
    report .notList place v
    return none

def answerList (place : Place) : Object → Reading Unit
  | [] => return
  | (_, .str _) :: rest | (_, .null) :: rest => answerList place rest
  | (name, v) :: rest => do
    report .notText (place ++ [.member (Text.StandIns.shown name)]) v
    answerList place rest

def answers (o : Object) (place : Place) : Reading Object := do
  match field? o place ["answers"] with
  | none => return []
  | some (place, .obj members) => do
    answerList place members
    return members
  | some (place, v) => do
    report .notMap place v
    return []

def trueWords : List String := ["1", "true", "t", "yes", "y", "on"]

def falseWords : List String := ["0", "false", "f", "no", "n", "off"]

/-- The truth value that a text spells in any letter case. -/
def truthValue? (s : String) : Option Bool :=
  let word := String.ofList (s.toList.map Char.toLower)
  if trueWords.contains word then some true
  else if falseWords.contains word then some false
  else none

/-- The truth value that a number stands for, if it is zero or one. Only 64-bit integers are numbers
that could be one. -/
def numericTruth (n : Int) : Except Fault.Kind Bool :=
  if n = 0 then .ok false
  else if n = 1 then .ok true
  else if -0x8000000000000000 ≤ n ∧ n < 0x8000000000000000 then .error .unreadableTruthValue
  else .error .notTruthValue

def truthOf : Json → Except Fault.Kind Bool
  | .bool b => .ok b
  | .int n => numericTruth n
  | .real x => match x.toInt? with
    | some n => if n = -0x8000000000000000 then .error .notTruthValue else numericTruth n
    | none => .error .notTruthValue
  | .str s => match truthValue? s with
    | some b => .ok b
    | none => .error .unreadableTruthValue
  | _ => .error .notTruthValue

def flag (o : Object) (place : Place) (names : List String) : Reading Bool := do
  match field? o place names with
  | none => return false
  | some (place, v) =>
    match truthOf v with
    | .ok b => return b
    | .error kind => do
      report kind place v
      return false

def framework (o : Object) (place : Place) : Reading (Option Framework) := do
  match field? o place ["framework"] with
  | none | some (_, .null) => return none
  | some (place, v) =>
    match v.asStr?.bind Framework.ofTag? with
    | some framework => return some framework
    | none => do
      report .notTag place v
      return none

def member (name : String) (v : Option Json) : Object :=
  match v with
  | some v => [(name, v)]
  | none => []

def settings (o : Object) (place : Place) : Reading Object := do
  let packageName ← text o place ["packageName", "package_name"]
  let className ← text o place ["className", "class_name"]
  let baseTestClass ← text o place ["baseTestClass", "base_test_class"]
  let imports ← textList o place ["imports"]
  let annotations ← textList o place ["annotations"]
  let framework ← framework o place
  let list (items : List String) : Json := .arr (items.map .str)
  return member "packageName" (packageName.map .str) ++
    member "className" (className.map .str) ++
    member "baseTestClass" (baseTestClass.map .str) ++
    member "imports" (imports.map list) ++
    member "annotations" (annotations.map list) ++
    member "framework" (framework.map fun f => .str f.tag)

def overrides (o : Object) (place : Place) : Reading Object := do
  match field? o place ["config", "overrides"] with
  | none | some (_, .null) => return []
  | some (place, .obj members) => settings members place
  | some (place, v) => do
    report .notObject place v
    return []

def editor (o : Object) (place : Place) : Reading EditorPayload := do
  return {
    documentText := ← text o place ["documentText", "document_text"]
    selectionText := ← text o place ["selectionText", "selection_text"]
    documentName := ← text o place ["documentName", "document_name"]
    projectRoot := ← text o place ["projectRoot", "project_root"]
    answers := ← answers o place
    overrides := ← overrides o place }

def generate (o : Object) (place : Place) : Reading GeneratePayload := do
  return {
    editor := ← editor o place
    selectionOnly := ← flag o place ["selectionOnly", "selection_only"] }

def file (o : Object) (place : Place) : Reading FilePayload := do
  return {
    editor := ← editor o place
    fileName := ← text o place ["fileName", "file_name"]
    content := ← text o place ["content"] }

def render (o : Object) (place : Place) : Reading RenderPayload := do
  return {
    steps := ← textList o place ["steps"]
    text := ← text o place ["text"]
    overrides := ← overrides o place }

def announcesJson (contentType : String) : Bool :=
  match Text.splitOn '/' (Text.lower (Text.trim (contentType.toList.takeWhile (· != ';')))) with
  | [main, sub] =>
    main == "application".toList &&
      (sub == "json".toList || "+json".toList.isSuffixOf sub)
  | _ => false

inductive Error where
  | faults (faults : List Fault)
  /-- A body that the JSON reader gives up on. -/
  | unreadable
  /-- Faults of values that no answer can show. -/
  | unshowable
deriving DecidableEq, Repr

/-- The error that some findings make. Answers show the values. -/
def errorOf (findings : List Finding) : Error :=
  if findings.all (·.value.isShowable) then .faults (findings.map Finding.fault) else .unshowable

def whole (kind : Fault.Kind) (value : Json) : Error :=
  errorOf [{ fault := { kind, place := [.member "body"] }, value }]

/-- The JSON value of a body; one that does not announce JSON is none. -/
def bodyValue (body : RequestBody) : Except Error Json := do
  unless announcesJson body.contentType do throw (whole .notObject .null)
  match (Json.textOfBytes? body.bytes).map Json.read with
  | some (.ok v) => return v
  | some (.error .malformed) => throw (whole .malformedJson .null)
  | some (.error _) | none => throw .unreadable

def read {α : Type} (body : Option RequestBody) (fields : Object → Place → Reading α) :
    Except Error α := do
  match body with
  | none | some { bytes := [], .. } => throw (whole .missing .null)
  | some body =>
    match ← bodyValue body with
    | .obj o =>
      let (payload, findings) := (fields o [.member "body"]).run []
      if findings.isEmpty then return payload else throw (errorOf findings)
    | v => throw (whole .notObject v)

end Payload

end StepGlue
