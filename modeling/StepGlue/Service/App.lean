import StepGlue.Service.Payload
import StepGlue.Service.Reply
import StepGlue.Service.Route
import StepGlue.Settings.Environment

/-!
The web service: starting it with its settings, and answering requests.
-/

namespace StepGlue

structure Request where
  method : String
  /-- The path, with its percent escapes resolved. -/
  path : String
  body : Option RequestBody
deriving DecidableEq, Repr

structure App where
  settings : Settings
  files : FileTree
  now : String
  session : Option Session
  isReady : Bool
  startError : Option String

namespace App

open Json (Object)

variable [Machine]

def new (settings : Settings) (files : FileTree) (now : String) : App where
  settings
  files
  now
  session := none
  isReady := false
  startError := none

def newSession (settings : Settings) (store : Store) : Session where
  store
  defaults := settings.defaults
  stepFileName := settings.stepFileName
  indentSize := settings.indentSize

/-- A session on the settings file; directories that were made for it stay. -/
def openSession (settings : Settings) (files : FileTree) : Except Failure Session × FileTree :=
  let (store, files) := Store.openFile files settings.settingsFile Store.defaultSection
  (store.map (newSession settings), files)

/-- Runs a command for a host and keeps what it did to settings and files. -/
def run {α : Type} (app : App) (session : Session) (host : Host) (command : Command α) :
    Except Failure α × Host × App :=
  let (result, desk) :=
    (ExceptT.run command).run { session, host, files := app.files, now := app.now }
  (result, desk.host, { app with session := some desk.session, files := desk.files })

def idleHost : Host :=
  Host.ofRequest none none none none []

def workspaceError (app : App) : Option String :=
  match app.settings.workspaceRoot with
  | none | some "" => none
  | some root =>
    match app.files.isDirectory (Path.ofString root) with
    | .ok true => none
    | .ok false => some ("Каталог рабочего пространства не найден: " ++ root)
    | .error e => some e.message

/-- Starts the service. Only an unknown log level stops it; other errors leave it unready. -/
def start (app : App) : Except Failure App := do
  let _ ← LogLevel.ofName app.settings.logLevel
  match openSession app.settings app.files with
  | (.error e, files) =>
    return { app with files, startError := some ("Ошибка создания оркестратора: " ++ e.message) }
  | (.ok session, files) =>
    match { app with files }.run session idleHost Command.initializeSettings with
    | (.error e, _, app) =>
      return { app with
        startError := some ("Инициализация настроек генератора: " ++ e.message) }
    | (.ok _, _, app) =>
      match app.workspaceError with
      | some message =>
        return { app with startError := some ("Проверка рабочего пространства: " ++ message) }
      | none => return { app with isReady := true }

def health (app : App) : Reply :=
  .json (if app.isReady then 200 else 503)
    (.obj
      ([ ("status", .str (if app.isReady then "ok" else "initializing")),
          ("service", .str app.settings.appName), ("version", .str Command.version) ] ++
        match app.startError with
        | some message => [("error", .str message)]
        | none => []))

/-- The host that a request describes; the workspace of the service stands in for a missing one. -/
def hostOf (app : App) (editor : EditorPayload) (answers : Object) : Except Failure Host := do
  let root := match editor.projectRoot with
    | none | some "" => app.settings.workspaceRoot
    | root => root
  return Host.ofRequest editor.documentText editor.selectionText editor.documentName
    (← Host.workspaceAt app.files root) answers

def withSession (app : App) (answer : Session → App × Reply) : App × Reply :=
  match app.session with
  | some session => answer session
  | none => (app, .detail 503 "Orchestrator is not initialized")

/-- Answers from the body of a request, if it has no faults, and from a session. -/
def withBody {α : Type} (app : App) (request : Request)
    (fields : Object → Payload.Place → Payload.Reading α) (answer : α → Session → App × Reply) :
    App × Reply :=
  match Payload.read request.body fields with
  | .error (.faults faults) => (app, .invalid faults)
  | .error .unreadable => (app, .detail 400 "There was an error parsing the body")
  | .error .unshowable => (app, .internalError)
  | .ok payload => app.withSession (answer payload)

/-- The answer to a failure; one that rejects a value is explained under `status`. -/
def rejection (status : Nat) (e : Failure) : Reply :=
  if e.rejectsValue then .detail status e.message else .internalError

def answerEditor {α : Type} (app : App) (session : Session) (editor : EditorPayload)
    (answers : Object) (command : Command α) (refusal : Failure → Reply)
    (reply : α → Host → Reply) : App × Reply :=
  match app.hostOf editor answers with
  | .error _ => (app, .internalError)
  | .ok host =>
    match app.run session host command with
    | (.ok outcome, host, app) => (app, reply outcome host)
    | (.error e, _, app) => (app, refusal e)

def internalError (_ : Failure) : Reply :=
  .internalError

/-- The answers of a request to create a file; the file name of the request is a default answer. -/
def fileAnswers (payload : FilePayload) : Object :=
  match payload.fileName with
  | some name =>
    if payload.editor.answers.contains "fileName" then payload.editor.answers
    else payload.editor.answers.set "fileName" (.str name)
  | none => payload.editor.answers

def answer (app : App) (request : Request) : Resource → App × Reply
  | .health => (app, app.health)
  | .generate =>
    app.withBody request Payload.generate fun payload session =>
      app.answerEditor session payload.editor payload.editor.answers
        (Command.generate payload.selectionOnly payload.editor.overrides) internalError
        fun outcome host => .json 200 (Reply.generateOutcome outcome host)
  | .render =>
    app.withBody request Payload.render fun payload session =>
      let text := match payload.steps with
        | some steps => "\n".intercalate steps
        | none => payload.text.getD ""
      match session.generate app.files text payload.overrides with
      | .ok generation => (app, .json 200 (.obj (Reply.generation generation)))
      | .error _ => (app, .internalError)
  | .file =>
    app.withBody request Payload.file fun payload session =>
      app.answerEditor session payload.editor (fileAnswers payload)
        (Command.createFile payload.content) internalError
        fun outcome host =>
          .json 200 (.obj (Reply.effects host ++ [("fileStatus", Reply.fileOutcome outcome)]))
  | .quickActions =>
    app.withSession fun _ => (app, .json 200 (.arr (QuickAction.all.map Reply.quickAction)))
  | .quickAction name =>
    app.withBody request Payload.generate fun payload session =>
      app.answerEditor session payload.editor payload.editor.answers
        (Command.runQuickAction name) (rejection 404)
        fun outcome host => Reply.quickOutcome name outcome host
  | .about =>
    app.withSession fun _ => (app, .json 200 (.obj [("message", .str Command.aboutText)]))
  | .settings =>
    if request.method = "GET" then
      app.withSession fun session =>
        match session.currentConfig app.files [] with
        | .ok config => (app, .configuration config)
        | .error _ => (app, .internalError)
    else
      app.withBody request Payload.settings fun values session =>
        match app.run session idleHost (Command.updateSettings values) with
        | (.ok config, _, app) => (app, .configuration config)
        | (.error e, _, app) => (app, rejection 422 e)

def dispatch (app : App) (request : Request) : App × Reply :=
  match Resource.ofPath? request.path with
  | none => (app, .detail 404 "Not Found")
  | some resource =>
    if resource.methods.contains request.method then app.answer request resource
    else (app, .detail 405 "Method Not Allowed")

/-- Answers a request; one for the head alone gets no body. -/
def handle (app : App) (request : Request) : App × Reply :=
  let (app, reply) := app.dispatch request
  (app, if request.method = "HEAD" then reply.sent.withoutBody else reply.sent)

end App

end StepGlue
