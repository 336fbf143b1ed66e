import StepGlue.Fault
import StepGlue.Session.Command

/-!
Answers of the service and their JSON forms.
-/

namespace StepGlue

inductive Reply where
  | json (status : Nat) (body : Json)
  | text (status : Nat) (body : String)
  | invalid (faults : List Fault)

namespace Reply

open Json (Object)

def detail (status : Nat) (message : String) : Reply :=
  .json status (.obj [("detail", .str message)])

def withoutBody : Reply → Reply
  | .json status _ | .text status _ => .text status ""
  | .invalid _ => .text 422 ""

def internalError : Reply :=
  .text 500 "Internal Server Error"

variable [Text.StandIns] in
/-- An answer as it is sent; a body without a form in UTF-8 cannot be. -/
def sent : Reply → Reply
  | .json status body => if body.isEncodable then .json status body else internalError
  | reply => reply

def orNull {α : Type} (f : α → Json) : Option α → Json
  | some x => f x
  | none => .null

def text? (s : Option String) : Json :=
  orNull .str s

def texts (ss : List String) : Json :=
  .arr (ss.map .str)

def parameter (p : Parameter) : Json :=
  .obj
    [ ("kind", .str p.kind.tag), ("typeName", .str p.kind.typeName), ("name", .str p.name),
      ("value", .str p.value), ("declaration", .str p.declaration) ]

/-- The step of a method, under the name of the method. -/
def step (m : Method) : Json :=
  .obj
    [ ("originalStep", .str m.step.line), ("keyword", .str m.step.category.word),
      ("stepText", .str m.step.text), ("parameters", .arr (m.step.parameters.map parameter)),
      ("methodName", .str m.name), ("matchPattern", .str m.step.pattern),
      ("annotation", .str m.step.annotation) ]

def notification (n : Notification) : Json :=
  .obj
    [ ("message", .str n.message), ("level", .str n.level), ("choices", texts n.choices),
      ("selected", text? n.selected) ]

/-- What the editor has to do itself. -/
def effects (h : Host) : Object :=
  [ ("clipboardText", text? h.clipboard), ("preview", text? h.preview),
    ("notifications", .arr (h.notifications.map notification)) ]

def fileMembers (o : FileOutcome) : Object :=
  [ ("status", .str o.status.word), ("targetPath", text? o.targetPath),
    ("message", text? o.message) ]

def fileOutcome (o : FileOutcome) : Json :=
  .obj (fileMembers o)

def generation (g : Generation) : Object :=
  [ ("code", .str g.code), ("stepsCount", .int g.methods.length),
    ("steps", .arr (g.methods.map step)), ("skippedLines", texts g.skippedLines) ]

def generateOutcome (o : GenerateOutcome) (h : Host) : Json :=
  .obj (effects h ++ [("status", .str o.status.word)] ++
    (match o.generation with
      | some g => generation g
      | none =>
        [ ("code", .null), ("stepsCount", .int 0), ("steps", .arr []),
          ("skippedLines", .arr []) ]) ++
    [ ("selectionInfo", text? o.selectionInfo), ("followUp", text? o.followUp),
      ("fileStatus", orNull fileOutcome o.file) ])

def quickStatus : QuickOutcome → String
  | .generate o => o.status.word
  | .createFile o => o.status.word
  | .configure o => o.status.word
  | .about _ => "shown"

def quickPayload : QuickOutcome → Object
  | .generate o =>
    [ ("status", .str o.status.word), ("selectionInfo", text? o.selectionInfo),
      ("followUp", text? o.followUp), ("fileStatus", orNull fileOutcome o.file) ] ++
      match o.generation with
      | some g => [("code", .str g.code), ("stepsCount", .int g.methods.length)]
      | none => []
  | .createFile o => fileMembers o
  | .configure o => [("status", .str o.status.word), ("config", .obj o.config.toObject)]
  | .about message => [("status", .str "shown"), ("message", .str message)]

/-- The greatest height of an untyped value in an answer. -/
def maxHeight : Nat := 255

/-- The answer to a quick action. Its payload is untyped: numbers that are not finite are left out,
and values that go too deep cannot be shown. -/
def quickOutcome (name : String) (o : QuickOutcome) (h : Host) : Reply :=
  let payload := quickPayload o
  if payload.any fun member => maxHeight < member.2.height then internalError
  else .json 200 (.obj (effects h ++
    [ ("action", .str name), ("status", .str (quickStatus o)),
      ("payload", (Json.obj payload).finitePart) ]))

def quickAction (name : QuickAction.Name) : Json :=
  .obj
    [ ("action", .str name.word), ("label", .str name.label),
      ("description", .str name.description) ]

def isText : Json → Bool
  | .str _ => true
  | _ => false

/-- Whether all settings have the types that answers promise. -/
def isWellTyped (config : Config) : Bool :=
  isText config.packageName && isText config.className && config.baseTestClass.all isText &&
    config.imports.all isText && config.annotations.all isText

/-- The answer that shows a configuration; one of other types cannot be shown. -/
def configuration (config : Config) : Reply :=
  if isWellTyped config then .json 200 (.obj config.toObject) else internalError

end Reply

end StepGlue
