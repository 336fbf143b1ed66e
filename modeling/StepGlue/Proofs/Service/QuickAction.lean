import StepGlue.Proofs.Service.Payload
import StepGlue.Proofs.Service.Settings
import StepGlue.Proofs.Session.Plain

/-!
# Quick actions through the service

The service takes every failure that rejects a value for an action that is not there. An action that
is listed can fail in this way too, so it is "not found" if something is in its way
(`quickAction_notFound_iff`). If nothing is, only actions that are not listed are not found.
-/

namespace StepGlue

open Json (Object)
open Text

/-! ### The path of an action -/

namespace Resource

variable {name : String}

theorem prefix_withoutLastLineFeed {start rest : List Char} (hne : rest ≠ []) :
    start <+: withoutLastLineFeed (start ++ rest) := by
  rw [withoutLastLineFeed]
  split
  · rw [List.dropLast_append_of_ne_nil hne]
    exact List.prefix_append _ _
  · exact List.prefix_append _ _

/-- No fixed path goes on below the path of the actions. -/
theorem lookup_fixedPaths_eq_none {path : List Char}
    (h : quickActionPath.toList ++ ['/'] <+: path) :
    fixedPaths.lookup (String.ofList path) = none := by
  have hfixed : ∀ entry ∈ fixedPaths, ¬quickActionPath.toList ++ ['/'] <+: entry.1.toList := by
    decide
  rw [List.lookup_eq_none_iff]
  intro entry hentry
  rw [bne_iff_ne]
  rintro heq
  apply hfixed entry hentry
  rwa [← heq, String.toList_ofList]

theorem ofPath?_quickAction (hne : name ≠ "") (hslash : '/' ∉ name.toList) :
    ofPath? (quickActionPath ++ "/" ++ name) = some (.quickAction name) := by
  have hchars : name.toList ≠ [] := by simpa using hne
  have hpath : (quickActionPath ++ "/" ++ name).toList =
      (quickActionPath.toList ++ ['/']) ++ name.toList := by simp
  have hfixed : fixedPaths.lookup (String.ofList
      (withoutLastLineFeed (quickActionPath ++ "/" ++ name).toList)) = none := by
    rw [hpath]
    exact lookup_fixedPaths_eq_none (prefix_withoutLastLineFeed hchars)
  have hplace : atPath? (quickActionPath ++ "/" ++ name) = some (.quickAction name) := by
    obtain ⟨c, rest, hname⟩ := List.exists_cons_of_ne_nil hchars
    have hrest : afterPrefix? (quickActionPath.toList ++ ['/'])
        (quickActionPath ++ "/" ++ name).toList = some (c :: rest) := by
      rw [afterPrefix?_eq_some_iff, hpath, hname]
    rw [atPath?, hfixed]
    dsimp only
    rw [hrest]
    dsimp only
    rw [if_neg (by simpa [hname] using hslash), ← hname, String.ofList_toList]
  rw [ofPath?, maxRedirects, ofPathWithin?, hplace]

end Resource

namespace QuickAction

theorem ofWord?_eq_none_iff {word : String} : ofWord? word = none ↔ word ∉ all.map Name.word := by
  rw [ofWord?, List.find?_eq_none]
  simp

theorem ofWord?_eq_some_iff {word : String} {action : Name} :
    ofWord? word = some action ↔ action.word = word := by
  constructor
  · intro h
    exact eq_of_beq (List.find?_some (p := fun name : Name => name.word == word) h)
  · rintro rfl
    cases action <;> rfl

end QuickAction

/-! ### Failures that are shown -/

section Failures

variable [Machine]

theorem Failure.isEncodable_unknownAction (name : String) :
    isEncodable (Failure.unknownAction name).message = isEncodable name := by
  have hascii : ∀ c ∈ "Unknown quick action: ".toList, c.toNat < 0x80 :=
    toNat_lt_of_all (by decide)
  have hlead : "Unknown quick action: ".toList.all Charset.utf8.admits :=
    Json.all_admits_of_isAscii hascii
  have hmessage : (Failure.unknownAction name).message = "Unknown quick action: " ++ name := rfl
  rw [hmessage, isEncodable, String.toList_append, List.all_append, hlead, Bool.true_and,
    isEncodable]

/-- An action fails and rejects a value in a way that can be shown exactly if it is not listed, or
something that can be shown is in its way. -/
theorem Command.exists_rejection_iff (desk : Desk) (hkeeps : desk.session.KeepsObjects)
    (name : String) :
    (∃ e, ((runQuickAction name).runOn desk).1 = .error e ∧ e.rejectsValue ∧
      isEncodable e.message) ↔
    name ∉ QuickAction.all.map QuickAction.Name.word ∧ isEncodable name ∨
      ∃ action e, action.word = name ∧ desk.Obstructs action e ∧ e.rejectsValue ∧
        isEncodable e.message := by
  constructor
  · rintro ⟨e, hfails, hrejects, hencodable⟩
    rcases (runQuickAction_eq_error_iff hkeeps hrejects name).mp hfails with
      ⟨hword, rfl⟩ | ⟨action, hword, hobstructs⟩
    · rw [Failure.isEncodable_unknownAction] at hencodable
      exact .inl ⟨QuickAction.ofWord?_eq_none_iff.mp hword, hencodable⟩
    · exact .inr ⟨action, e, QuickAction.ofWord?_eq_some_iff.mp hword, hobstructs, hrejects,
        hencodable⟩
  · rintro (⟨hunlisted, hencodable⟩ | ⟨action, e, hword, hobstructs, hrejects, hencodable⟩)
    · refine ⟨.unknownAction name, ?_, rfl,
        (Failure.isEncodable_unknownAction name).trans hencodable⟩
      exact (runQuickAction_eq_error_iff hkeeps rfl name).mpr
        (.inl ⟨QuickAction.ofWord?_eq_none_iff.mpr hunlisted, rfl⟩)
    · refine ⟨e, ?_, hrejects, hencodable⟩
      exact (runQuickAction_eq_error_iff hkeeps hrejects name).mpr
        (.inr ⟨action, QuickAction.ofWord?_eq_some_iff.mpr hword, hobstructs⟩)

end Failures

/-! ### Answers -/

namespace Reply

variable [Machine] {e : Failure}

omit [Machine] in
theorem status_quickOutcome_ne (name : String) (outcome : QuickOutcome) (host : Host) :
    (quickOutcome name outcome host).status ≠ 404 := by
  rw [quickOutcome]
  split
  · exact show 500 ≠ 404 by decide
  · exact show 200 ≠ 404 by decide

theorem isEncodable_detail_iff {message : String} :
    (Json.obj [("detail", .str message)]).isEncodable ↔ Text.isEncodable message := by
  have hname : Text.isEncodable "detail" :=
    Json.all_admits_of_isAscii (s := "detail".toList) (Text.toNat_lt_of_all (by decide))
  rw [Json.isEncodable_obj_iff, List.forall_mem_singleton]
  exact and_iff_right hname

theorem status_sent_rejection_iff : (App.rejection 404 e).sent.status = 404 ↔
    e.rejectsValue ∧ Text.isEncodable e.message := by
  rw [App.rejection]
  by_cases hrejects : e.rejectsValue
  · rw [if_pos hrejects, and_iff_right hrejects, ← isEncodable_detail_iff, detail, sent]
    split
    · rename_i hencodable
      exact iff_of_true rfl hencodable
    · rename_i hencodable
      exact iff_of_false (show 500 ≠ 404 by decide) hencodable
  · rw [if_neg hrejects]
    exact iff_of_false (show 500 ≠ 404 by decide) fun h => hrejects h.1

end Reply

namespace App

variable [Machine] {app : App} {request : Request} {session : Session} {payload : GeneratePayload}
  {name : String}

/-- The desk at which a session serves a host. -/
def deskFor (app : App) (session : Session) (host : Host) : Desk :=
  { session, host, files := app.files, now := app.now }

section Request

variable (hsession : app.session = some session) (hmethod : request.method = "POST")
  (hpath : Resource.ofPath? request.path = some (.quickAction name))
  (hread : Payload.read request.body Payload.generate = .ok payload)
include hsession hmethod hpath hread

theorem handle_quickAction : (app.handle request).2 =
    (app.answerEditor session payload.editor payload.editor.answers (Command.runQuickAction name)
      (rejection 404) (Reply.quickOutcome name)).2.sent := by
  have hallowed : (Resource.quickAction name).methods.contains request.method := by
    rw [hmethod]
    rfl
  have hbody : request.method ≠ "HEAD" := by
    rw [hmethod]
    decide
  rw [handle, dispatch, hpath]
  dsimp only
  rw [if_pos hallowed, if_neg hbody, answer, withBody, hread]
  dsimp only [withSession]
  rw [hsession]

/-- The service answers "not found" if the action fails and rejects a value in a way that can be
shown. -/
theorem status_handle_quickAction_iff : (app.handle request).2.status = 404 ↔
    ∃ host, app.hostOf payload.editor payload.editor.answers = .ok host ∧
      ∃ e, ((Command.runQuickAction name).runOn (app.deskFor session host)).1 = .error e ∧
        e.rejectsValue ∧ Text.isEncodable e.message := by
  rw [handle_quickAction hsession hmethod hpath hread, answerEditor]
  cases app.hostOf payload.editor payload.editor.answers with
  | error e => simp [Reply.sent, Reply.internalError, Reply.status]
  | ok host =>
    rcases hrun : (Command.runQuickAction name).runOn (app.deskFor session host) with
      ⟨result, desk⟩
    dsimp only
    rw [run_eq hrun]
    cases result with
    | ok outcome =>
      suffices (Reply.quickOutcome name outcome desk.host).sent.status ≠ 404 by simpa [hrun]
      exact fun hstatus => Reply.status_quickOutcome_ne name outcome desk.host
        (Reply.status_eq_of_status_sent (by decide) hstatus)
    | error e => simp [hrun, Reply.status_sent_rejection_iff]

end Request

section Host

variable {editor : EditorPayload} {answers : Object} {host : Host}
  (h : app.hostOf editor answers = .ok host)
include h

/-- A host that a request describes writes below a root without null characters. -/
theorem hasNoNul_of_hostOf (hworking : app.files.workingDirectory.HasNoNul) :
    ∀ w, host.workspace = some w → w.root.HasNoNul := by
  rw [hostOf] at h
  obtain ⟨workspace, hworkspace, hhost⟩ := bind_eq_ok_iff.mp h
  obtain rfl := Except.ok.inj hhost
  rintro w (rfl : workspace = some w)
  unfold Host.workspaceAt at hworkspace
  split at hworkspace
  · cases hworkspace
  · cases hworkspace
  · obtain ⟨w', hroot, hw⟩ := map_eq_ok_iff.mp hworkspace
    obtain rfl := Option.some.inj hw
    exact Workspace.hasNoNul_root hworking hroot

theorem hasShortIntegers_of_hostOf (hanswers : Payload.AreAnswers answers) :
    (Json.obj host.answers).hasShortIntegers := by
  obtain ⟨_, -, hhost⟩ := bind_eq_ok_iff.mp h
  obtain rfl := Except.ok.inj hhost
  refine Json.hasShortIntegers_obj_iff.mpr fun answer hmem => ?_
  rcases hanswers answer hmem with hnull | ⟨s, htext⟩
  · rw [hnull]
    rfl
  · rw [htext]
    rfl

end Host

end App

/-- **Actions that are not found.** The service answers a valid request for an action with "not
found" exactly if the host of the request can be made, and the action is not listed or something is
in its way. If the settings can be read and all names and texts can be written, exactly the actions
that are not listed are not found. -/
theorem quickAction_notFound_iff [Machine] {app : App} {request : Request} {session : Session}
    {payload : GeneratePayload} {name : String} (hsession : app.session = some session)
    (hkeeps : session.KeepsObjects) (hmethod : request.method = "POST")
    (hne : name ≠ "") (hslash : '/' ∉ name.toList)
    (hpath : request.path = Resource.quickActionPath ++ "/" ++ name)
    (hread : Payload.read request.body Payload.generate = .ok payload) :
    ((app.handle request).2.status = 404 ↔
      ∃ host, app.hostOf payload.editor payload.editor.answers = .ok host ∧
        (name ∉ QuickAction.all.map QuickAction.Name.word ∧ isEncodable name ∨
          ∃ action e, action.word = name ∧ (app.deskFor session host).Obstructs action e ∧
            e.rejectsValue ∧ isEncodable e.message)) ∧
    ∀ host, app.hostOf payload.editor payload.editor.answers = .ok host →
      app.files.workingDirectory.HasNoNul → isEncodable name →
      (app.deskFor session host).IsPlain →
        ((app.handle request).2.status = 404 ↔
          name ∉ QuickAction.all.map QuickAction.Name.word) := by
  have hplace : Resource.ofPath? request.path = some (.quickAction name) := by
    rw [hpath]
    exact Resource.ofPath?_quickAction hne hslash
  have hstatus : (app.handle request).2.status = 404 ↔
      ∃ host, app.hostOf payload.editor payload.editor.answers = .ok host ∧
        (name ∉ QuickAction.all.map QuickAction.Name.word ∧ isEncodable name ∨
          ∃ action e, action.word = name ∧ (app.deskFor session host).Obstructs action e ∧
            e.rejectsValue ∧ isEncodable e.message) := by
    rw [App.status_handle_quickAction_iff hsession hmethod hplace hread]
    exact exists_congr fun host => and_congr_right fun _ =>
      Command.exists_rejection_iff (app.deskFor session host) hkeeps name
  refine ⟨hstatus, fun host hhost hworking hname hplain => ?_⟩
  rw [hstatus]
  constructor
  · rintro ⟨host', hhost', ⟨hunlisted, -⟩ | ⟨action, e, -, hobstructs, hrejects, -⟩⟩
    · exact hunlisted
    · obtain rfl : host = host' := Except.ok.inj (hhost.symm.trans hhost')
      exact absurd hobstructs
        (hplain.not_obstructs hkeeps
          (App.hasShortIntegers_of_hostOf hhost (Payload.areAnswers_of_read hread))
          (App.hasNoNul_of_hostOf hhost hworking) hrejects action)
  · exact fun hunlisted => ⟨host, hhost, .inl ⟨hunlisted, hname⟩⟩

end StepGlue

/-! ### A service on a settings file -/

namespace StepGlue

open Json (Object)
open Store

attribute [local instance] Machine.plain

def emptyBody : RequestBody where
  bytes := (Json.obj []).layout.toUTF8.toList
  contentType := "application/json"

/-- A request for an action, with nothing about the editor. -/
def actionRequest (name : String) : Request where
  method := "POST"
  path := Resource.quickActionPath ++ "/" ++ name
  body := some emptyBody

def emptyPayload : GeneratePayload :=
  ((Payload.generate [] [.member "body"]).run []).1

theorem read_emptyBody : Payload.read (some emptyBody) Payload.generate = .ok emptyPayload := by
  have htext : Json.textOfBytes? emptyBody.bytes = some (Json.obj []).layout := by
    decide +kernel
  have hread : Json.read (Json.obj []).layout = .ok (.obj []) :=
    Json.readWithin_layout isStorable_nil.isReadable (within_none _)
  have hvalue : Payload.bodyValue emptyBody = .ok (.obj []) := by
    rw [Payload.bodyValue, htext, Option.map_some, hread]
    rfl
  exact Payload.read_of_bodyValue hvalue rfl

theorem isEncodable_of_noStandIns (text : String) : Text.isEncodable text :=
  List.all_eq_true.mpr fun _ _ => rfl

theorem keepsObjects_onSettingsFile :
    (App.newSession plainSettings onSettingsFile).KeepsObjects where
  holdsSection := fun _ => by decide
  defaults := ⟨⟨.str _, rfl⟩, ⟨.str _, rfl⟩, nofun⟩
  memory := .obj List.nodup_nil nofun

def plainNames : Object :=
  [ ("packageName", plainSettings.defaults.packageName),
    ("className", plainSettings.defaults.className), ("baseTestClass", .str "") ]

theorem isPlain_of_no_file : ((serviceOn onSettingsFile .empty).deskFor
    (App.newSession plainSettings onSettingsFile) App.idleHost).IsPlain where
  exists_config := ⟨_, rfl⟩
  shows := by
    intro config hconfig
    obtain rfl : plainSettings.defaults = config := Except.ok.inj hconfig
    exact ⟨⟨rfl, rfl, nofun⟩, nofun⟩
  fileName := by
    intro name hname
    obtain rfl : "StepDefinitions.java" = name := Option.some.inj (Except.ok.inj hname)
    exact ⟨fun _ _ => rfl, by decide⟩
  code := fun _ code _ => isEncodable_of_noStandIns code
  takesTexts := by
    rintro - document config values hdocument hconfig hvalues
    obtain rfl : [] = document := Except.ok.inj hdocument
    obtain rfl : plainSettings.defaults = config := Except.ok.inj hconfig
    obtain rfl : plainNames = values := Option.some.inj (Except.ok.inj hvalues)
    refine ⟨?_, isEncodable_of_noStandIns _, isEncodable_of_noStandIns _, rfl, rfl⟩
    rintro path ⟨⟩
    rfl

theorem quickAction_notFound_of_undo :
    ((serviceOn onSettingsFile .empty).handle (actionRequest "undo")).2.status = 404 ∧
      ((serviceOn onSettingsFile .empty).handle (actionRequest "configure")).2.status ≠ 404 := by
  have hiff (name : String) (hne : name ≠ "") (hslash : '/' ∉ name.toList) :
      ((serviceOn onSettingsFile .empty).handle (actionRequest name)).2.status = 404 ↔
        name ∉ QuickAction.all.map QuickAction.Name.word :=
    (quickAction_notFound_iff rfl keepsObjects_onSettingsFile rfl hne hslash rfl read_emptyBody).2
      App.idleHost rfl nofun (isEncodable_of_noStandIns name) isPlain_of_no_file
  have hlisted : "configure" ∈ QuickAction.all.map QuickAction.Name.word := by decide
  exact ⟨(hiff "undo" (by decide) (by decide)).mpr (by decide),
    fun hstatus => (hiff "configure" (by decide) (by decide)).mp hstatus hlisted⟩

/-- A settings document that names a framework that is none. -/
def bogusDocument : Object :=
  [(defaultSection, .obj [("framework", .str "bogus")])]

def bogusFile : FileTree :=
  settingsFileOf (.text (Json.obj bogusDocument).layout)

theorem document_bogusFile : onSettingsFile.document bogusFile = .ok bogusDocument := by
  have hmembers : ∀ member ∈ [("framework", Json.str "bogus")], member.2.IsReadable :=
    List.forall_mem_singleton.mpr ⟨.str "bogus", rfl⟩
  have hreadable : (Json.obj bogusDocument).IsReadable := Json.isReadable_obj_iff.mpr
    ⟨by decide, List.forall_mem_singleton.mpr (Json.isReadable_obj_iff.mpr ⟨by decide, hmembers⟩)⟩
  exact (holds_put_layout FileTree.isFilePath_empty hreadable).document_eq rfl (within_none _)

/-- With a stored framework that is none, a listed action is not found. -/
theorem not_notFound_iff_unlisted_of_stored_framework :
    (∃ payload, Payload.read (actionRequest "configure").body Payload.generate = .ok payload) ∧
    ¬(((serviceOn onSettingsFile bogusFile).handle (actionRequest "configure")).2.status = 404 ↔
      "configure" ∉ QuickAction.all.map QuickAction.Name.word) := by
  have hlisted : "configure" ∈ QuickAction.all.map QuickAction.Name.word := by decide
  refine ⟨⟨_, read_emptyBody⟩, fun hiff => hiff.mp ?_ hlisted⟩
  have hplace : Resource.ofPath? (actionRequest "configure").path =
      some (.quickAction "configure") :=
    Resource.ofPath?_quickAction (by decide) (by decide)
  have hstored : onSettingsFile.snapshot bogusFile = .ok [("framework", .str "bogus")] :=
    bind_eq_ok_iff.mpr ⟨_, document_bogusFile, rfl⟩
  have hframework : Config.NamesNoFramework [("framework", .str "bogus")]
      (.unknownFramework "'bogus'") :=
    ⟨nofun, nofun, .str "bogus", rfl, rfl, .inr ⟨"bogus", rfl, rfl, rfl⟩⟩
  rw [App.status_handle_quickAction_iff rfl rfl hplace read_emptyBody]
  refine ⟨App.idleHost, rfl, .unknownFramework "'bogus'", ?_, rfl, isEncodable_of_noStandIns _⟩
  exact (Command.runQuickAction_eq_error_iff keepsObjects_onSettingsFile rfl "configure").mpr
    (.inr ⟨.configure, rfl, .framework (.inr rfl) hstored hframework⟩)

end StepGlue
