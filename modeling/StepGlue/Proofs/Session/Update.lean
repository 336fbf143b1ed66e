import StepGlue.Proofs.Session.Changes
import StepGlue.Proofs.Session.Run

/-!
# Updates of the settings are all or nothing

The settings are stored before the configuration that they give is computed, so an update that fails
can have stored them. It does not if the settings that it leaves alone can be read, and if the file
takes what is stored.
-/

namespace StepGlue

open Json (Object)

variable [Machine]

/-! ### One update of a store -/

namespace Store

/-- Whether a file, if a store is on one, takes changes: no text is in the way, and no value is in
the gap between what is copied and what is written. -/
def FileTakes (s : Store) (t : FileTree) (now : String) (changes : Object) : Prop :=
  ∀ path place document, s.path = some path → t.IsFilePath path place →
    s.document t = .ok document →
      (Json.obj document).isEncodable ∧ IsClean s.sectionName now changes ∧ AvoidsGap changes

variable {s : Store} {t : FileTree} {now : String} {changes : Object}

/-- An update fails and leaves what a snapshot gives as it was, or it succeeds and a snapshot gives
the section with the changes. -/
def IsWhole (s : Store) (t : FileTree) (changes : Object)
    (result : Except Failure Object × Store × FileTree) : Prop :=
  (∃ e, result.1 = .error e) ∧ result.2.1.snapshot result.2.2 = s.snapshot t ∨
    (∃ stored, result.1 = .ok stored) ∧ ∃ document, s.document t = .ok document ∧
      result.2.1.snapshot result.2.2 = .ok ((s.sectionOf document).update changes)

theorem isWhole_of_unchanged (e : Failure) : IsWhole s t changes (.error e, s, t) :=
  .inl ⟨⟨e, rfl⟩, rfl⟩

theorem isWhole_update_inMemory (hpath : s.path = none) :
    IsWhole s t changes (s.update t now changes) := by
  have hbefore := snapshot_inMemory hpath t
  have hdocument : s.document t = .ok [(s.sectionName, .obj s.memory)] := by
    rw [document, hpath]
  rw [update_inMemory hpath, setInMemory]
  cases hcopy : copy (s.memory.update changes) with
  | error e => exact .inl ⟨⟨e, rfl⟩, (snapshot_inMemory hpath t).trans hbefore.symm⟩
  | ok updated =>
    obtain rfl := eq_of_copy_eq_ok hcopy
    refine .inr ⟨⟨_, rfl⟩, _, hdocument, ?_⟩
    rw [sectionOf_inMemory]
    have hafter := snapshot_inMemory (m := { s with memory := s.memory.update changes }) hpath t
    exact hafter.trans hcopy

theorem isWhole_update_of_document {path : Path} {place : Location} {document : Object}
    (hpath : s.path = some path) (hfile : t.IsFilePath path place)
    (hdocument : s.document t = .ok document) (hencodable : (Json.obj document).isEncodable)
    (hclean : IsClean s.sectionName now changes) (havoids : AvoidsGap changes) :
    IsWhole s t changes (s.update t now changes) := by
  rcases update_cases_of_isClean hpath hdocument hfile hencodable hclean with
    ⟨e, hupdate⟩ | ⟨hstorable, hupdate⟩
  · rw [hupdate]
    exact isWhole_of_unchanged e
  · have hdepth := within_depth_written (isRead_of_document hpath hdocument).within_depth hclean
      havoids.readsBack hstorable
    have hwritten := (holds_put_layout hfile hstorable.isReadable).document_eq hpath hdepth
    have hafter := snapshot_eq hwritten
    have hbefore := snapshot_eq hdocument
    rw [sectionOf_written hclean.sectionName_ne] at hafter
    by_cases hlow : Within (Machine.limit Nesting.copied)
        (Json.obj ((s.sectionOf document).update changes)).height
    · rw [copy_of_within hlow] at hafter hupdate
      rw [hupdate]
      exact .inr ⟨⟨_, rfl⟩, document, hdocument, hafter⟩
    · -- the values are low, so the section was too high before: neither snapshot can be taken
      have hhigh : ¬Within (Machine.limit Nesting.copied)
          (Json.obj (s.sectionOf document)).height := by
        intro hbelow
        exact hlow (within_copied_update hbelow havoids
          (within_values_of_written hclean.sectionName_ne hclean.wellFormed.nodup
            hstorable.within_height Machine.within_written_two))
      rw [copy_of_not_within hlow] at hafter hupdate
      rw [copy_of_not_within hhigh] at hbefore
      rw [hupdate]
      exact .inl ⟨⟨_, rfl⟩, hafter.trans hbefore.symm⟩

theorem isWhole_update (htakes : FileTakes s t now changes) :
    IsWhole s t changes (s.update t now changes) := by
  cases hpath : s.path with
  | none => exact isWhole_update_inMemory hpath
  | some path =>
    cases hdocument : s.document t with
    | error e =>
      rw [update, hdocument]
      exact isWhole_of_unchanged e
    | ok document =>
      cases hplace : t.filePlace path with
      | error e =>
        obtain ⟨e, hupdate⟩ := exists_update_of_filePlace hpath hdocument hplace now changes
        rw [hupdate]
        exact isWhole_of_unchanged e
      | ok place =>
        have hfile := FileTree.isFilePath_of_filePlace hplace
        obtain ⟨hencodable, hclean, havoids⟩ := htakes path place document hpath hfile hdocument
        exact isWhole_update_of_document hpath hfile hdocument hencodable hclean havoids

end Store

/-! ### The command -/

namespace Desk

/-- Whether what some values leave alone can be read, and a file takes the changes they make. -/
structure Takes (desk : Desk) (values changes : Object) : Prop where
  leavesReadable : ∀ document, desk.session.store.document desk.files = .ok document →
    Session.LeavesReadable (desk.session.store.sectionOf document) values
  fileTakes : desk.session.store.FileTakes desk.files desk.now changes

/-- Whether nothing is in the way of an update with some values, if it changes anything. -/
def IsSound (desk : Desk) (values : Object) : Prop :=
  ∀ changes, Session.changes values = .ok changes → changes ≠ [] → desk.Takes values changes

end Desk

theorem Session.exists_currentConfig_iff {s : Session} {files : FileTree} {stored : Object}
    (hsnapshot : s.store.snapshot files = .ok stored) :
    (∃ config, s.currentConfig files [] = .ok config) ↔
      ∃ config, s.defaults.layer stored = .ok config := by
  rw [currentConfig, hsnapshot]
  constructor
  · rintro ⟨config, hconfig⟩
    obtain ⟨_, ⟨rfl⟩, hconfig⟩ := bind_eq_ok_iff.mp hconfig
    obtain ⟨layered, hlayered, -⟩ := bind_eq_ok_iff.mp hconfig
    exact ⟨layered, hlayered⟩
  · rintro ⟨layered, hlayered⟩
    obtain ⟨config, hconfig⟩ : ∃ config, layered.layer [] = .ok config :=
      Config.exists_layer_iff.mpr ⟨⟨_, rfl⟩, ⟨_, rfl⟩, ⟨_, rfl⟩⟩
    exact ⟨config, bind_eq_ok_iff.mpr
      ⟨stored, rfl, bind_eq_ok_iff.mpr ⟨layered, hlayered, hconfig⟩⟩⟩

namespace Command

section UpdateSettings

variable {values changes : Object}

theorem runOn_updateSettings_of_error {e : Failure} (hchanges : Session.changes values = .error e)
    (desk : Desk) : (updateSettings values).runOn desk = (.error e, desk) := by
  rw [updateSettings, hchanges]
  rfl

theorem runOn_updateSettings_of_nil (hchanges : Session.changes values = .ok []) (desk : Desk) :
    (updateSettings values).runOn desk = (desk.session.currentConfig desk.files [], desk) := by
  rw [updateSettings, hchanges]
  rfl

/-- Changes are stored first; the configuration is of the settings after that. -/
theorem runOn_updateSettings {desk : Desk} {stored : Except Failure Object} {store : Store}
    {files : FileTree} (hchanges : Session.changes values = .ok changes) (hany : changes ≠ [])
    (hupdate : desk.session.store.update desk.files desk.now changes = (stored, store, files)) :
    (updateSettings values).runOn desk =
      (stored.bind fun _ => (desk.withStore store files).session.currentConfig files [],
        desk.withStore store files) := by
  cases changes with
  | nil => exact absurd rfl hany
  | cons first rest =>
    rw [updateSettings, hchanges]
    change (storing (fun store files now => store.update files now (first :: rest)) >>=
      fun _ => currentConfig []).runOn desk = _
    rw [runOn_bind, runOn_storing hupdate]
    cases stored <;> rfl

/-- Once changes are stored, an update fails exactly if what they leave alone cannot be read. -/
theorem exists_error_iff_of_stored {desk : Desk} {document updated : Object} {store : Store}
    {files : FileTree} (hchanges : Session.changes values = .ok changes) (hany : changes ≠ [])
    (hupdate : desk.session.store.update desk.files desk.now changes = (.ok updated, store, files))
    (hsnapshot : store.snapshot files =
      .ok ((desk.session.store.sectionOf document).update changes)) :
    (∃ e, ((updateSettings values).runOn desk).1 = .error e) ↔
      ¬Session.LeavesReadable (desk.session.store.sectionOf document) values := by
  have hconfig := Session.exists_currentConfig_iff (s := (desk.withStore store files).session)
    hsnapshot
  rw [Session.exists_layer_update_iff hchanges] at hconfig
  rw [runOn_updateSettings hchanges hany hupdate, ← hconfig]
  change (∃ e, (desk.withStore store files).session.currentConfig files [] = .error e) ↔ _
  cases (desk.withStore store files).session.currentConfig files [] <;> simp

/-- An update fails and leaves what a snapshot gives as it was, or it succeeds and a snapshot gives
the section with all changes. -/
theorem runOn_updateSettings_cases {desk : Desk} (hsound : desk.IsSound values) :
    (∃ e, ((updateSettings values).runOn desk).1 = .error e) ∧
        ((updateSettings values).runOn desk).2.snapshot = desk.snapshot ∨
      (∃ config, ((updateSettings values).runOn desk).1 = .ok config) ∧
        ∃ changes document, Session.changes values = .ok changes ∧
          desk.session.store.document desk.files = .ok document ∧
          ((updateSettings values).runOn desk).2.snapshot =
            .ok ((desk.session.store.sectionOf document).update changes) := by
  cases hchanges : Session.changes values with
  | error e =>
    rw [runOn_updateSettings_of_error hchanges]
    exact .inl ⟨⟨e, rfl⟩, rfl⟩
  | ok changes =>
    by_cases hany : changes = []
    · subst hany
      rw [runOn_updateSettings_of_nil hchanges]
      cases hconfig : desk.session.currentConfig desk.files [] with
      | error e => exact .inl ⟨⟨e, rfl⟩, rfl⟩
      | ok config =>
        obtain ⟨stored, hsnapshot, -⟩ := bind_eq_ok_iff.mp hconfig
        obtain ⟨document, hdocument, rfl⟩ := Store.exists_document_of_snapshot hsnapshot
        exact .inr ⟨⟨config, rfl⟩, [], document, rfl, hdocument, hsnapshot⟩
    · obtain ⟨hreadable, htakes⟩ := hsound changes hchanges hany
      have hwhole := Store.isWhole_update htakes
      rcases hupdate : desk.session.store.update desk.files desk.now changes with
        ⟨stored, store, files⟩
      rw [hupdate] at hwhole
      rcases hwhole with ⟨⟨e, hstored⟩, hsnapshot⟩ |
        ⟨⟨updated, hstored⟩, document, hdocument, hsnapshot⟩
      · obtain rfl : stored = .error e := hstored
        rw [runOn_updateSettings hchanges hany hupdate]
        exact .inl ⟨⟨e, rfl⟩, hsnapshot⟩
      · -- the changes are stored by now, and the configuration that follows cannot fail any more
        obtain rfl : stored = .ok updated := hstored
        have hfails := exists_error_iff_of_stored hchanges hany hupdate hsnapshot
        cases hresult : ((updateSettings values).runOn desk).1 with
        | error e => exact absurd (hreadable document hdocument) (hfails.mp ⟨e, hresult⟩)
        | ok config =>
          rw [runOn_updateSettings hchanges hany hupdate]
          exact .inr ⟨⟨config, rfl⟩, changes, document, rfl, hdocument, hsnapshot⟩

theorem snapshot_runOn_updateSettings {desk : Desk} {e : Failure} (hsound : desk.IsSound values)
    (herror : ((updateSettings values).runOn desk).1 = .error e) :
    ((updateSettings values).runOn desk).2.snapshot = desk.snapshot := by
  rcases runOn_updateSettings_cases hsound with ⟨-, hsnapshot⟩ | ⟨⟨config, hconfig⟩, -⟩
  · exact hsnapshot
  · exact nomatch hconfig.symm.trans herror

end UpdateSettings

end Command

/-! ### The service -/

namespace Reply

def status : Reply → Nat
  | .json status _ | .text status _ => status
  | .invalid _ => 422

/-- An answer that is not sent as it is becomes an internal error. -/
theorem status_eq_of_status_sent {reply : Reply} {n : Nat} (hn : n ≠ 500)
    (hsent : reply.sent.status = n) : reply.status = n := by
  cases reply with
  | json status body =>
    rw [sent] at hsent
    split at hsent
    · exact hsent
    · exact absurd hsent.symm hn
  | text status body => exact hsent
  | invalid faults => exact hsent

omit [Machine] in
theorem status_configuration_ne (config : Config) : (configuration config).status ≠ 422 := by
  rw [configuration]
  split
  · exact show 200 ≠ 422 by decide
  · decide

end Reply

namespace App

def snapshot? (app : App) : Option (Except Failure Object) :=
  app.session.map fun session => session.store.snapshot app.files

/-- Whether nothing is in the way of an update that a request asks for. -/
def TakesUpdate (app : App) (request : Request) : Prop :=
  ∀ session values, app.session = some session →
    Payload.read request.body Payload.settings = .ok values → (app.deskOf session).IsSound values

variable {app : App} {request : Request}

theorem answer_settings_of_run {session : Session} {values : Object}
    {result : Except Failure Config} {desk : Desk} (hmethod : request.method = "PUT")
    (hsession : app.session = some session)
    (hread : Payload.read request.body Payload.settings = .ok values)
    (hrun : (Command.updateSettings values).runOn (app.deskOf session) = (result, desk)) :
    app.answer request .settings =
      ({ app with session := some desk.session, files := desk.files },
        match result with
        | .ok config => .configuration config
        | .error e => rejection 422 e) := by
  rw [answer, if_neg (by rw [hmethod]; decide), withBody, hread]
  dsimp only [withSession]
  rw [hsession]
  dsimp only
  rw [run_eq hrun]
  cases result <;> rfl

theorem snapshot?_answer_settings (hmethod : request.method = "PUT")
    (htakes : app.TakesUpdate request)
    (hstatus : (app.answer request .settings).2.status = 422) :
    (app.answer request .settings).1.snapshot? = app.snapshot? := by
  cases hread : Payload.read request.body Payload.settings with
  | error e =>
    rw [answer, if_neg (by rw [hmethod]; decide), withBody, hread]
    cases e <;> rfl
  | ok values =>
    cases hsession : app.session with
    | none =>
      rw [answer, if_neg (by rw [hmethod]; decide), withBody, hread]
      dsimp only [withSession]
      rw [hsession]
    | some session =>
      have hsound := htakes session values hsession hread
      rcases hrun : (Command.updateSettings values).runOn (app.deskOf session) with ⟨result, desk⟩
      rw [answer_settings_of_run hmethod hsession hread hrun] at hstatus ⊢
      cases result with
      | ok config => exact absurd hstatus (Reply.status_configuration_ne config)
      | error e =>
        have hkeeps := Command.snapshot_runOn_updateSettings hsound (by rw [hrun])
        rw [hrun] at hkeeps
        rw [snapshot?, snapshot?, hsession]
        exact congrArg some hkeeps

section Put

variable (hmethod : request.method = "PUT")
  (hpath : Resource.ofPath? request.path = some .settings)
include hmethod hpath

theorem handle_put_settings : app.handle request =
    ((app.answer request .settings).1, (app.answer request .settings).2.sent) := by
  rw [handle, dispatch, hpath]
  dsimp only
  rw [if_pos (by rw [hmethod]; rfl), if_neg (by rw [hmethod]; decide)]

theorem snapshot?_handle_put_settings (htakes : app.TakesUpdate request)
    (hstatus : (app.handle request).2.status = 422) :
    (app.handle request).1.snapshot? = app.snapshot? := by
  rw [handle_put_settings hmethod hpath] at hstatus ⊢
  exact snapshot?_answer_settings hmethod htakes
    (Reply.status_eq_of_status_sent (by decide) hstatus)

/-- An update that fails is answered with a rejection, and what it left behind stays. -/
theorem handle_put_settings_of_error {session : Session} {values : Object} {e : Failure}
    {desk : Desk} (hsession : app.session = some session)
    (hread : Payload.read request.body Payload.settings = .ok values)
    (hrun : (Command.updateSettings values).runOn (app.deskOf session) = (.error e, desk)) :
    app.handle request =
      ({ app with session := some desk.session, files := desk.files }, (rejection 422 e).sent) := by
  rw [handle_put_settings hmethod hpath, answer_settings_of_run hmethod hsession hread hrun]

end Put

end App

/-- **Updates are all or nothing.** If the settings that are left alone can be read and a file takes
the changes, an update of the settings that fails leaves what a snapshot gives as it was, and one
that succeeds has stored all changes. A request that is answered with a rejection has changed
nothing. -/
theorem updateSettings_all_or_nothing :
    (∀ (desk : Desk) (values : Object), desk.IsSound values →
      (∀ e, ((Command.updateSettings values).runOn desk).1 = .error e →
        ((Command.updateSettings values).runOn desk).2.snapshot = desk.snapshot) ∧
      ∀ config, ((Command.updateSettings values).runOn desk).1 = .ok config →
        ∃ changes document, Session.changes values = .ok changes ∧
          desk.session.store.document desk.files = .ok document ∧
          ((Command.updateSettings values).runOn desk).2.snapshot =
            .ok ((desk.session.store.sectionOf document).update changes)) ∧
    ∀ (app : App) (request : Request), request.method = "PUT" →
      Resource.ofPath? request.path = some .settings → app.TakesUpdate request →
        (app.handle request).2.status = 422 →
          (app.handle request).1.snapshot? = app.snapshot? := by
  constructor
  · intro desk values hsound
    refine ⟨fun e herror => Command.snapshot_runOn_updateSettings hsound herror, ?_⟩
    intro config hconfig
    rcases Command.runOn_updateSettings_cases hsound with ⟨⟨e, herror⟩, -⟩ | ⟨-, hstored⟩
    · exact nomatch hconfig.symm.trans herror
    · exact hstored
  · intro app request hmethod hpath htakes hstatus
    exact App.snapshot?_handle_put_settings hmethod hpath htakes hstatus

end StepGlue

/-! ### A file that is no UTF-8, and a stored framework that is none -/

namespace StepGlue

open Store
open Json (Object)

attribute [local instance] Machine.plain

def packageObject : Object :=
  [("packageName", .str "x")]

def packageRequest : Request where
  method := "PUT"
  path := "/api/v1/settings"
  body := some
    { bytes := (Json.obj packageObject).layout.toUTF8.toList, contentType := "application/json" }

theorem read_packageRequest :
    Payload.read packageRequest.body Payload.settings = .ok packageObject := by
  have htext : Json.textOfBytes? (Json.obj packageObject).layout.toUTF8.toList =
      some (Json.obj packageObject).layout := by
    decide +kernel
  have hread : Json.read (Json.obj packageObject).layout = .ok (.obj packageObject) :=
    Json.readWithin_layout ⟨.obj (by decide) (List.forall_mem_singleton.mpr (.str "x")), by decide⟩
      (within_none _)
  have hvalue : Payload.bodyValue
      { bytes := (Json.obj packageObject).layout.toUTF8.toList
        contentType := "application/json" } = .ok (.obj packageObject) := by
    rw [Payload.bodyValue, htext, Option.map_some, hread]
    rfl
  rw [packageRequest, Payload.read, hvalue]
  · rfl
  · intro _ hempty
    have hbytes : (Json.obj packageObject).layout.toUTF8.toList = [] :=
      congrArg RequestBody.bytes hempty
    exact absurd hbytes (by decide +kernel)

/-- A byte that is no UTF-8, and the failure of reading it. -/
def invalidByte : FileContent :=
  .binary [0xff] { fault := .invalidStart, position := 0, length := 1, byte := 0xff }

def undecodable : Failure :=
  .undecodable { fault := .invalidStart, position := 0, length := 1, byte := 0xff }

theorem document_invalidByte :
    onSettingsFile.document (settingsFileOf invalidByte) = .error undecodable :=
  rfl

theorem takesUpdate_of_invalidByte :
    (serviceOn onSettingsFile (settingsFileOf invalidByte)).TakesUpdate packageRequest := by
  rintro session values ⟨⟩ hread changes - -
  refine ⟨fun document hdocument => ?_, fun path place document hpath hfile hdocument => ?_⟩
  · exact nomatch hdocument.symm.trans document_invalidByte
  · exact nomatch hdocument.symm.trans document_invalidByte

theorem isSound_memoryDesk (values : Object) : (memoryDesk []).IsSound values := by
  rintro changes - -
  refine ⟨?_, nofun⟩
  rintro document ⟨⟩
  exact ⟨fun _ => ⟨[], rfl⟩, fun _ => ⟨[], rfl⟩, fun _ => ⟨.cucumber, rfl⟩⟩

theorem isSound_directoryDesk (values : Object) : directoryDesk.IsSound values := by
  rintro changes - -
  refine ⟨?_, ?_⟩
  · rintro document ⟨⟩
    exact ⟨fun _ => ⟨[], rfl⟩, fun _ => ⟨[], rfl⟩, fun _ => ⟨.cucumber, rfl⟩⟩
  · rintro _ place document ⟨⟩ hfile -
    cases hfile.filePlace_eq

theorem updateSettings_all_or_nothing_of_failures :
    (((Command.updateSettings packageObject).runOn directoryDesk).1 =
        .error (.file { cause := .isADirectory, path := "s.json" }) ∧
      ((Command.updateSettings packageObject).runOn directoryDesk).2.snapshot = .ok []) ∧
    ((Command.updateSettings packageObject).runOn (memoryDesk [])).2.snapshot =
        .ok packageObject ∧
    ((serviceOn onSettingsFile (settingsFileOf invalidByte)).handle packageRequest).2.status =
        422 ∧
      ((serviceOn onSettingsFile (settingsFileOf invalidByte)).handle packageRequest).1.snapshot? =
        some (.error undecodable) := by
  have hfirst : ((Command.updateSettings packageObject).runOn directoryDesk).1 =
      .error (.file { cause := .isADirectory, path := "s.json" }) :=
    rfl
  have hsecond : ((serviceOn onSettingsFile (settingsFileOf invalidByte)).handle
      packageRequest).2.status = 422 := by
    rw [App.handle_put_settings_of_error (e := undecodable) rfl (by decide) rfl
      read_packageRequest rfl]
    decide
  refine ⟨⟨hfirst, ?_⟩, ?_, hsecond, ?_⟩
  · exact (updateSettings_all_or_nothing.1 _ _ (isSound_directoryDesk _)).1 _ hfirst
  · obtain ⟨changes, document, hchanges, hdocument, hsnapshot⟩ :=
      (updateSettings_all_or_nothing.1 _ _ (isSound_memoryDesk packageObject)).2 _ rfl
    obtain rfl : packageObject = changes := Except.ok.inj hchanges
    obtain rfl : [(defaultSection, .obj [])] = document := Except.ok.inj hdocument
    exact hsnapshot
  · exact updateSettings_all_or_nothing.2 _ packageRequest rfl (by decide)
      takesUpdate_of_invalidByte hsecond

theorem runOn_updateSettings_bogus :
    (Command.updateSettings packageObject).runOn
        (memoryDesk [("framework", .str "bogus")]) =
      (.error (.unknownFramework "'bogus'"),
        memoryDesk [("framework", .str "bogus"), ("packageName", .str "x")]) :=
  rfl

/-- A framework in the store that is none makes an update fail after the package name is stored, and
a request for it is answered with a rejection. -/
theorem not_all_or_nothing_of_stored_framework :
    (((Command.updateSettings packageObject).runOn
        (memoryDesk [("framework", .str "bogus")])).1 = .error (.unknownFramework "'bogus'") ∧
      ((Command.updateSettings packageObject).runOn
        (memoryDesk [("framework", .str "bogus")])).2.snapshot ≠
          (memoryDesk [("framework", .str "bogus")]).snapshot) ∧
    ((serviceOn (memoryOf [("framework", .str "bogus")]) .empty).handle
        packageRequest).2.status = 422 ∧
      ((serviceOn (memoryOf [("framework", .str "bogus")]) .empty).handle
        packageRequest).1.snapshot? ≠
          (serviceOn (memoryOf [("framework", .str "bogus")]) .empty).snapshot? := by
  rw [App.handle_put_settings_of_error (e := .unknownFramework "'bogus'") rfl (by decide) rfl
    read_packageRequest runOn_updateSettings_bogus, runOn_updateSettings_bogus]
  refine ⟨⟨rfl, ?_⟩, by decide, ?_⟩
  · intro h
    exact absurd (congrArg List.length (Except.ok.inj h)) (by decide)
  · intro h
    exact absurd (congrArg List.length (Except.ok.inj (Option.some.inj h))) (by decide)

end StepGlue
