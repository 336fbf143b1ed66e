import StepGlue.Proofs.Session.Laws

/-!
# Settings through the service

What the service shows of its settings can be sent back: it is read as the configuration that was
shown, and an update with it leaves everything that is shown as it was.
-/

namespace StepGlue

open Json (Object)

variable [Machine]

/-! ### Reading what was shown -/

namespace Payload

variable {o : Object} {place : Place} {name : String}

omit [Machine] in
theorem text_of_get? {s : String} (h : o.get? name = some (.str s)) (others : List String) :
    text o place (name :: others) = pure (some s) := by
  rw [text, field?, h]

omit [Machine] in
theorem texts_map_str (place : Place) (index : Nat) (ss : List String) :
    texts place index (ss.map .str) = pure ss := by
  induction ss generalizing index with
  | nil => rfl
  | cons s ss ih =>
    rw [List.map_cons, texts, ih]
    rfl

omit [Machine] in
theorem textList_of_get? {l : List String} (h : o.get? name = some (.arr (l.map .str)))
    (others : List String) : textList o place (name :: others) = pure (some l) := by
  rw [textList, field?, h]
  dsimp only
  rw [texts_map_str]
  rfl

omit [Machine] in
theorem framework_of_get? {f : Framework} (h : o.get? "framework" = some (.str f.tag)) :
    framework o place = pure (some f) := by
  rw [framework, field?, h]
  dsimp only [Json.asStr?, Option.bind_some]
  rw [Framework.ofTag?_tag]

/-- A body without text is no JSON value. -/
theorem bytes_ne_of_bodyValue {body : RequestBody} {v : Json} (h : bodyValue body = .ok v) :
    body.bytes ≠ [] := by
  obtain ⟨bytes, contentType⟩ := body
  rintro rfl
  have htext : Json.textOfBytes? [] = some "" := by
    rw [Json.textOfBytes?, Json.Encoding.ofBytes, Json.Encoding.decode?, Json.Encoding.withoutMark,
      Text.Utf8.decode, Text.Utf8.decodeAt]
    · rfl
    all_goals simp
  rw [bodyValue, htext] at h
  split at h
  · exact nomatch h
  · exact nomatch h

theorem read_of_bodyValue {α : Type} {fields : Object → Place → Reading α} {payload : α}
    {body : RequestBody} (hvalue : bodyValue body = .ok (.obj o))
    (hrun : (fields o [.member "body"]).run [] = (payload, [])) :
    read (some body) fields = .ok payload := by
  have hbytes := bytes_ne_of_bodyValue hvalue
  obtain ⟨bytes, contentType⟩ := body
  cases bytes with
  | nil => exact absurd rfl hbytes
  | cons first rest =>
    refine bind_eq_ok_iff.mpr ⟨_, hvalue, ?_⟩
    dsimp only
    rw [hrun]
    rfl

end Payload

namespace Config

omit [Machine] in
/-- A configuration that was shown is read without faults. -/
theorem IsTyped.run_settings {config : Config} (h : config.IsTyped) (place : Payload.Place) :
    (Payload.settings config.toObject place).run [] = (config.toObject, []) := by
  obtain ⟨hwell, -⟩ := h
  simp only [Reply.isWellTyped, Bool.and_eq_true] at hwell
  obtain ⟨⟨⟨⟨hpackage, hclass⟩, hbase⟩, himports⟩, hannotations⟩ := hwell
  obtain ⟨packageName, className, baseTestClass, imports, annotations, framework⟩ := config
  obtain ⟨package, rfl⟩ := exists_eq_str_of_isText hpackage
  obtain ⟨name, rfl⟩ := exists_eq_str_of_isText hclass
  obtain ⟨importTexts, rfl⟩ := exists_map_str_of_all_isText himports
  obtain ⟨annotationTexts, rfl⟩ := exists_map_str_of_all_isText hannotations
  obtain ⟨base, hbaseText⟩ : ∃ base, baseTestClass.getD (.str "") = .str base := by
    cases baseTestClass with
    | none => exact ⟨"", rfl⟩
    | some base => exact exists_eq_str_of_isText hbase
  simp only [toObject, hbaseText]
  rw [Payload.settings, Payload.text_of_get? (s := package) rfl,
    Payload.text_of_get? (s := name) rfl,
    Payload.text_of_get? (s := base) rfl, Payload.textList_of_get? (l := importTexts) rfl,
    Payload.textList_of_get? (l := annotationTexts) rfl,
    Payload.framework_of_get? (f := framework) rfl]
  rfl

theorem Resolves.baseTestClass_ne {config defaults : Config} {layers : List Object}
    (h : config.Resolves defaults layers) (hdefaults : defaults.baseTestClass ≠ some (.str "")) :
    config.baseTestClass ≠ some (.str "") := by
  have htakes := h.baseTestClass
  cases hgiven : layers.findSome? (·.given? "baseTestClass") with
  | none =>
    rw [hgiven] at htakes
    rw [show config.baseTestClass = defaults.baseTestClass from htakes]
    exact hdefaults
  | some v =>
    rw [hgiven] at htakes
    rw [show config.baseTestClass = if v.isGiven then some v else none from htakes]
    split
    · rename_i hv
      intro hempty
      obtain rfl := Option.some.inj hempty
      exact nomatch hv
    · exact nofun

end Config

omit [Machine] in
theorem Settings.baseTestClass_defaults_ne (settings : Settings) :
    settings.defaults.baseTestClass ≠ some (.str "") := by
  rw [Settings.defaults]
  dsimp only
  split
  · exact nofun
  · rename_i hne
    intro hempty
    obtain ⟨base, hbase, htext⟩ := Option.map_eq_some_iff.mp hempty
    rw [hbase] at hne
    exact hne (Json.str.inj htext)

/-! ### Showing and sending back -/

namespace Reply

theorem sent_configuration {config : Config} (hwell : isWellTyped config)
    (hencodable : (Json.obj config.toObject).isEncodable) :
    (configuration config).sent = .json 200 (.obj config.toObject) := by
  rw [configuration, if_pos hwell, sent, if_pos hencodable]

theorem of_sent_configuration {config : Config} {body : Json}
    (h : (configuration config).sent = .json 200 body) :
    isWellTyped config ∧ (Json.obj config.toObject).isEncodable ∧
      body = .obj config.toObject := by
  rw [configuration] at h
  split at h
  · rename_i hwell
    rw [sent] at h
    split at h
    · rename_i hencodable
      exact ⟨hwell, hencodable, (Reply.json.inj h).2.symm⟩
    · cases h
  · cases h

end Reply

namespace App

variable {app : App} {request : Request} {session : Session}

theorem handle_get_settings (hmethod : request.method = "GET")
    (hpath : Resource.ofPath? request.path = some .settings)
    (hsession : app.session = some session) :
    app.handle request = (app, match session.currentConfig app.files [] with
      | .ok config => (Reply.configuration config).sent
      | .error _ => Reply.internalError) := by
  rw [handle, dispatch, hpath]
  dsimp only
  rw [if_pos (by rw [hmethod]; rfl), answer, if_pos hmethod, withSession, hsession]
  dsimp only
  cases session.currentConfig app.files [] with
  | ok config => rw [if_neg (by rw [hmethod]; decide)]
  | error e =>
    rw [if_neg (by rw [hmethod]; decide)]
    rfl

theorem status_rejection_ne (e : Failure) : (rejection 422 e).status ≠ 200 := by
  rw [rejection]
  split
  · exact show 422 ≠ 200 by decide
  · exact show 500 ≠ 200 by decide

section SendingBack

variable {settings : Settings} {store : Store} {body : Json}
  (hsession : app.session = some (newSession settings store))
include hsession

/-- What is shown of the settings is a configuration with the types that it promises. -/
theorem exists_config_of_shown (hmethod : request.method = "GET")
    (hpath : Resource.ofPath? request.path = some .settings)
    (hshown : (app.handle request).2 = .json 200 body) :
    ∃ config, (newSession settings store).currentConfig app.files [] = .ok config ∧
      config.IsTyped ∧ (Json.obj config.toObject).isEncodable ∧ body = .obj config.toObject := by
  rw [handle_get_settings hmethod hpath hsession] at hshown
  dsimp only at hshown
  cases hconfig : (newSession settings store).currentConfig app.files [] with
  | error e =>
    rw [hconfig] at hshown
    exact nomatch hshown
  | ok config =>
    rw [hconfig] at hshown
    obtain ⟨hwell, hencodable, hbody⟩ := Reply.of_sent_configuration hshown
    obtain ⟨stored, -, hresolves⟩ := Session.resolves_of_currentConfig hconfig
    have hne := hresolves.baseTestClass_ne settings.baseTestClass_defaults_ne
    exact ⟨config, rfl, ⟨hwell, hne⟩, hencodable, hbody⟩

/-- What the service shows of its settings changes nothing that is shown when it is sent back, and
it is taken if the settings are in memory. -/
theorem shown_of_sent_back {get put : Request} {sent : RequestBody}
    (hsection : store.HoldsSection) (hget : get.method = "GET")
    (hgetPath : Resource.ofPath? get.path = some .settings)
    (hshown : (app.handle get).2 = .json 200 body) (hput : put.method = "PUT")
    (hputPath : Resource.ofPath? put.path = some .settings) (hbody : put.body = some sent)
    (hvalue : Payload.bodyValue sent = .ok body) :
    ((app.handle put).2.status = 200 → (app.handle put).2 = .json 200 body ∧
      ((app.handle put).1.handle get).2 = .json 200 body) ∧
    (store.path = none → (app.handle put).2.status = 200) := by
  obtain ⟨config, hconfig, htyped, hencodable, rfl⟩ :=
    exists_config_of_shown hsession hget hgetPath hshown
  have hread : Payload.read put.body Payload.settings = .ok config.toObject := by
    rw [hbody]
    exact Payload.read_of_bodyValue hvalue (htyped.run_settings _)
  have hsent := Reply.sent_configuration htyped.isWellTyped hencodable
  rcases hrun : (Command.updateSettings config.toObject).runOn
    (app.deskOf (newSession settings store)) with ⟨result, desk⟩
  rw [handle_put_settings hput hputPath, answer_settings_of_run hput hsession hread hrun]
  dsimp only
  constructor
  · intro hstatus
    cases result with
    | error e =>
      exact absurd (Reply.status_eq_of_status_sent (by decide) hstatus) (status_rejection_ne e)
    | ok config' =>
      obtain ⟨rfl, hafter⟩ := Command.eq_of_updateSettings_toObject htyped hsection hrun
      refine ⟨hsent, ?_⟩
      rw [handle_get_settings hget hgetPath rfl]
      dsimp only
      rw [show desk.session.currentConfig desk.files [] = .ok config' from hafter]
      exact hsent
  · intro hpath
    obtain ⟨stored, hstored, -⟩ := Session.resolves_of_currentConfig hconfig
    have hresult : ((Command.updateSettings config.toObject).runOn
        (app.deskOf (newSession settings store))).1 = .ok config :=
      Command.updateSettings_toObject_inMemory htyped hpath hstored
    rw [hrun] at hresult
    obtain rfl : result = .ok config := hresult
    dsimp only
    rw [hsent]
    rfl

end SendingBack

end App

/-- **Laws of updates.** An update that succeeds reads the settings that are given, keeps all
others, and stores no name that is no setting. To repeat it changes nothing, updates that have no
setting in common can be exchanged, and an update with a whole configuration makes it the
configuration, whatever was stored before. So the settings that the service shows can be sent
back. -/
theorem updateSettings_laws :
    (∀ (desk after : Desk) (values : Object) (before config : Config),
      desk.session.store.HoldsSection → (Json.obj values).WellFormed → desk.config = .ok before →
      (Command.updateSettings values).runOn desk = (.ok config, after) →
        before.IsUpdated values config ∧ after.config = .ok config ∧
        (∃ stored stored', desk.snapshot = .ok stored ∧ after.snapshot = .ok stored' ∧
          ∀ name ∉ Session.settingNames, stored'.get? name = stored.get? name) ∧
        ∀ now, Text.isEncodable now →
          ((Command.updateSettings values).runOn (after.later now)).1 = .ok config) ∧
    (∀ (desk first second first' second' : Desk) (values others : Object) (now now' : String)
      (before middle middle' config config' : Config),
      desk.session.store.HoldsSection → (Json.obj values).WellFormed →
      (Json.obj others).WellFormed →
      (∀ name, values.given? name = none ∨ others.given? name = none) →
      desk.config = .ok before →
      (Command.updateSettings values).runOn desk = (.ok middle, first) →
      (Command.updateSettings others).runOn (first.later now) = (.ok config, second) →
      (Command.updateSettings others).runOn desk = (.ok middle', first') →
      (Command.updateSettings values).runOn (first'.later now') = (.ok config', second') →
        config = config') ∧
    (∀ (desk : Desk) (written : Config), desk.session.store.HoldsSection → written.IsTyped →
      (∀ config after,
        (Command.updateSettings written.toObject).runOn desk = (.ok config, after) →
          config = written ∧ after.config = .ok written) ∧
      (∀ updated,
        (desk.session.store.update desk.files desk.now written.toObject).1 = .ok updated →
          ((Command.updateSettings written.toObject).runOn desk).1 = .ok written) ∧
      (∀ stored, desk.session.store.path = none → desk.snapshot = .ok stored →
          ((Command.updateSettings written.toObject).runOn desk).1 = .ok written)) ∧
    ∀ (app : App) (settings : Settings) (store : Store) (get put : Request) (sent : RequestBody)
      (body : Json), app.session = some (App.newSession settings store) → store.HoldsSection →
      get.method = "GET" → Resource.ofPath? get.path = some .settings →
      (app.handle get).2 = .json 200 body →
      put.method = "PUT" → Resource.ofPath? put.path = some .settings → put.body = some sent →
      Payload.bodyValue sent = .ok body →
        ((app.handle put).2.status = 200 → (app.handle put).2 = .json 200 body ∧
          ((app.handle put).1.handle get).2 = .json 200 body) ∧
        (store.path = none → (app.handle put).2.status = 200) := by
  refine ⟨?_, ?_, ?_, ?_⟩
  · intro desk after values before config hsection hvalues hbefore h
    obtain ⟨stored, hstored, -⟩ := Session.resolves_of_currentConfig hbefore
    obtain ⟨stored', hstored', hkept⟩ := Command.get?_of_updateSettings hsection hvalues h hstored
    exact ⟨Command.isUpdated_of_updateSettings hsection hvalues hbefore h,
      (Command.stored_of_updateSettings hsection hvalues h).1,
      ⟨stored, stored', hstored, hstored', hkept⟩,
      fun now hnow => Command.updateSettings_again hsection hvalues h hnow⟩
  · intro desk first second first' second' values others now now' before middle middle' config
      config' hsection hvalues hothers hapart hbefore hfirst hsecond hfirst' hsecond'
    exact Command.updateSettings_comm hsection hvalues hothers hapart hbefore hfirst hsecond hfirst'
      hsecond'
  · intro desk written hsection hwritten
    refine ⟨fun config after h => Command.eq_of_updateSettings_toObject hwritten hsection h,
      fun updated hupdated => ?_, fun stored hpath hstored =>
        Command.updateSettings_toObject_inMemory hwritten hpath hstored⟩
    exact Command.updateSettings_toObject_of_update hwritten hsection (Prod.ext hupdated rfl)
  · intro app settings store get put sent body hsession hsection hget hgetPath hshown hput hputPath
      hbody hvalue
    exact App.shown_of_sent_back hsession hsection hget hgetPath hshown hput hputPath hbody hvalue

end StepGlue

/-! ### A package name, a class name, a framework that is none, and a section for the time -/

namespace StepGlue

open Json (Object)

attribute [local instance] Machine.plain

def classObject : Object :=
  [("className", .str "Y")]

def packageConfig : Config :=
  { plainSettings.defaults with packageName := .str "x" }

def showRequest : Request where
  method := "GET"
  path := "/api/v1/settings"
  body := none

def shownBody : RequestBody where
  bytes := (Json.obj plainSettings.defaults.toObject).layout.toUTF8.toList
  contentType := "application/json"

def sendRequest : Request where
  method := "PUT"
  path := "/api/v1/settings"
  body := some shownBody

theorem isTyped_packageConfig : packageConfig.IsTyped :=
  ⟨rfl, nofun⟩

theorem bodyValue_shownBody :
    Payload.bodyValue shownBody = .ok (.obj plainSettings.defaults.toObject) := by
  have htext : Json.textOfBytes? shownBody.bytes =
      some (Json.obj plainSettings.defaults.toObject).layout := by
    decide +kernel
  have htyped : plainSettings.defaults.IsTyped := ⟨rfl, nofun⟩
  have hread : Json.read (Json.obj plainSettings.defaults.toObject).layout =
      .ok (.obj plainSettings.defaults.toObject) :=
    Json.readWithin_layout ⟨htyped.wellFormed_toObject, by decide⟩ (within_none _)
  rw [Payload.bodyValue, htext, Option.map_some, hread]
  rfl

theorem updateSettings_laws_of_memory :
    (∃ after, (Command.updateSettings packageObject).runOn (memoryDesk []) =
        (.ok packageConfig, after) ∧
      plainSettings.defaults.IsUpdated packageObject packageConfig ∧
      ((Command.updateSettings packageObject).runOn (after.later "u")).1 = .ok packageConfig) ∧
    (∃ config config',
      ((Command.updateSettings classObject).runOn
        (((Command.updateSettings packageObject).runOn (memoryDesk [])).2.later "u")).1 =
          .ok config ∧
      ((Command.updateSettings packageObject).runOn
        (((Command.updateSettings classObject).runOn (memoryDesk [])).2.later "u")).1 =
          .ok config' ∧
      config = config') ∧
    ((Command.updateSettings packageConfig.toObject).runOn
      (memoryDesk [("framework", .str "bogus")])).1 = .ok packageConfig ∧
    ((serviceOn (memoryOf []) .empty).handle sendRequest).2 =
      .json 200 (.obj plainSettings.defaults.toObject) := by
  obtain ⟨hupdate, hexchange, hwrite, hservice⟩ := updateSettings_laws
  have hsection (memory : Object) : (memoryDesk memory).session.store.HoldsSection :=
    fun hfile => absurd rfl hfile
  have hpackage : (Json.obj packageObject).WellFormed :=
    .obj (by decide) (List.forall_mem_singleton.mpr (.str "x"))
  have hclass : (Json.obj classObject).WellFormed :=
    .obj (by decide) (List.forall_mem_singleton.mpr (.str "Y"))
  have hapart : ∀ name, packageObject.given? name = none ∨ classObject.given? name = none := by
    intro name
    by_cases hname : name = "packageName"
    · exact .inr (by rw [hname]; rfl)
    · exact .inl (by simp [Object.given?, Object.get?, PairList.get?, packageObject, hname])
  refine ⟨⟨_, rfl, ?_⟩, ⟨_, _, rfl, rfl, ?_⟩, ?_, ?_⟩
  · obtain ⟨hupdated, -, -, hagain⟩ := hupdate _ _ _ _ _ (hsection []) hpackage rfl rfl
    exact ⟨hupdated, hagain "u" (by decide)⟩
  · exact hexchange (memoryDesk []) _ _ _ _ packageObject classObject "u" "u" _ _ _ _ _
      (hsection []) hpackage hclass hapart rfl rfl rfl rfl rfl
  · exact (hwrite _ _ (hsection _) isTyped_packageConfig).2.2 _ rfl rfl
  · have happly := hservice (serviceOn (memoryOf []) .empty) plainSettings (memoryOf []) showRequest
      sendRequest shownBody _ rfl (fun hfile => absurd rfl hfile) rfl rfl rfl rfl rfl rfl
      bodyValue_shownBody
    exact (happly.1 (happly.2 rfl)).1

/-- A store whose section has the name under which the time is noted. -/
def timeStore : Store :=
  { Store.onSettingsFile with sectionName := Store.timeMember }

def timeDesk : Desk :=
  (serviceOn timeStore .empty).deskOf (App.newSession plainSettings timeStore)

/-- The time is written over the section that was updated. -/
theorem exists_update_timeStore : ∃ files,
    timeStore.update .empty "t" packageObject = (.ok packageObject, timeStore, files) ∧
      timeStore.snapshot files = .ok [] := by
  have hdocument : timeStore.document .empty = .ok [] := rfl
  have hwritten : timeStore.written [] "t" packageObject = [("updatedAt", .str "t")] := rfl
  have hstorable : Store.IsStorable (timeStore.written [] "t" packageObject) := by
    rw [hwritten]
    exact ⟨⟨.obj (by decide) (List.forall_mem_singleton.mpr (.str "t")), by decide⟩, within_none _,
      by decide⟩
  have hfile : FileTree.empty.IsFilePath FileTree.settingsPath ["s.json"] :=
    FileTree.isFilePath_empty
  refine ⟨_, Store.update_of_isStorable rfl hdocument hfile hstorable, ?_⟩
  rw [Store.snapshot_eq ((Store.holds_put_layout hfile hstorable.isReadable).document_eq rfl
    (within_none _)), hwritten]
  rfl

/-- A package name that is given is lost where the section is called as the time is. -/
theorem not_isUpdated_of_time_section :
    timeDesk.config = .ok plainSettings.defaults ∧ (∃ after,
      (Command.updateSettings packageObject).runOn timeDesk =
        (.ok plainSettings.defaults, after)) ∧
      ¬plainSettings.defaults.IsUpdated packageObject plainSettings.defaults := by
  refine ⟨rfl, ?_, fun h => ?_⟩
  · obtain ⟨files, hupdate, hsnapshot⟩ := exists_update_timeStore
    have hrun : (Command.updateSettings packageObject).runOn timeDesk = _ :=
      Command.runOn_updateSettings rfl (by decide) hupdate
    have hconfig : (timeDesk.withStore timeStore files).session.currentConfig files [] =
        .ok plainSettings.defaults := by
      rw [Session.currentConfig]
      change timeStore.snapshot files >>= _ = _
      rw [hsnapshot]
      rfl
    exact ⟨_, hrun.trans (Prod.ext hconfig rfl)⟩
  · have hname : plainSettings.defaults.packageName = .str "x" := h.packageName
    exact absurd (Json.str.inj hname) (by decide)

end StepGlue
