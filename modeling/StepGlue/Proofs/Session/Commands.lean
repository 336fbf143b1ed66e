import StepGlue.Proofs.Session.Laws
import StepGlue.Proofs.Workspace.Frame

/-!
# What the commands of a session do

A command asks the host, which answers as it was told beforehand and notes what it is told. Besides
these notes a command changes the settings by at most one update, or writes at most one file.
-/

namespace StepGlue

open Json (Object)

/-! ### Hosts and desks up to notes -/

namespace Host

/-- Whether a host differs from another one by its notifications only. -/
def IsTold (h h' : Host) : Prop :=
  ∃ notifications, h' = { h with notifications }

variable {h h' h'' : Host}

theorem IsTold.refl (h : Host) : IsTold h h :=
  ⟨h.notifications, rfl⟩

theorem IsTold.trans (hfirst : IsTold h h') (hsecond : IsTold h' h'') : IsTold h h'' := by
  obtain ⟨notifications, rfl⟩ := hfirst
  obtain ⟨notifications', rfl⟩ := hsecond
  exact ⟨notifications', rfl⟩

theorem isTold_notify (h : Host) (message : String) (options : NotifyOptions) :
    IsTold h (h.notify message options) :=
  ⟨_, rfl⟩

variable [Machine]

/-- The answer to a question that offers a value, unless it is cancelled. -/
def answerTo (h : Host) (key : String) (value : Json) : Except Failure (Option Json) :=
  match h.answers.get? key with
  | none => .ok (some value)
  | some _ => (h.prompt key none).map (Option.map .str)

/-- The names that `configure` stores, unless it is cancelled. -/
def configured (h : Host) (config : Config) : Except Failure (Option Object) := do
  match ← h.answerTo "packageName" config.packageName with
  | none => return none
  | some packageName =>
    match ← h.answerTo "className" config.className with
    | none => return none
    | some className =>
      let baseTestClass ← h.answerTo "baseTestClass" (config.baseTestClass.getD (.str ""))
      return some [ ("packageName", packageName), ("className", className),
        ("baseTestClass", baseTestClass.getD (.str "")) ]

/-! ### Writing a file -/

/-- Where a host writes a file of some name. -/
def Writes (h : Host) (path : String) (place : Location) : Prop :=
  ∃ w, h.workspace = some w ∧ w.Writes path place

/-- A host notes each file that it has written or refused, and nothing else. -/
theorem exists_record_writeFile (h : Host) (t : FileTree) (path text : String) :
    (∃ file, (h.writeFile t path text).1 = .ok file.success ∧
      (h.writeFile t path text).2.1 = h.record file) ∨
    ∃ e, (h.writeFile t path text).1 = .error e ∧ e.refusesFile = false ∧
      (h.writeFile t path text).2.1 = h := by
  rw [writeFile]
  split
  · exact .inl ⟨_, rfl, rfl⟩
  · split
    · exact .inl ⟨_, rfl, rfl⟩
    · rename_i e t' _
      cases hrefuses : e.refusesFile with
      | true =>
        rw [if_pos rfl]
        exact .inl ⟨_, rfl, rfl⟩
      | false =>
        rw [if_neg Bool.false_ne_true]
        exact .inr ⟨e, rfl, hrefuses, rfl⟩

theorem preview_writeFile (h : Host) (t : FileTree) (path text : String) :
    ((h.writeFile t path text).2.1.preview, (h.writeFile t path text).2.1.previewLanguage) =
      (h.preview, h.previewLanguage) := by
  rcases h.exists_record_writeFile t path text with ⟨_, -, hafter⟩ | ⟨_, -, -, hafter⟩
  · rw [hafter]
    rfl
  · rw [hafter]

theorem frame_writeFile (h : Host) (t : FileTree) (path text : String) :
    FileTree.Frame (h.Writes path) t (h.writeFile t path text).2.2 := by
  rw [writeFile]
  split
  · exact .refl _ t
  · rename_i w hw
    have hframe := (w.frame_write t path text true).mono
      fun place (hplace : w.Writes path place) => (⟨w, hw, hplace⟩ : h.Writes path place)
    split
    · rename_i hwrite
      rw [hwrite] at hframe
      exact hframe
    · rename_i hwrite
      rw [hwrite] at hframe
      split <;> exact hframe

end Host

namespace Desk

/-- Whether a desk differs from another one by the notifications of its host only. -/
def IsTold (desk desk' : Desk) : Prop :=
  ∃ host, desk.host.IsTold host ∧ desk' = { desk with host }

variable {desk desk' desk'' : Desk}

theorem IsTold.refl (desk : Desk) : IsTold desk desk :=
  ⟨desk.host, .refl _, rfl⟩

theorem IsTold.trans (hfirst : IsTold desk desk') (hsecond : IsTold desk' desk'') :
    IsTold desk desk'' := by
  obtain ⟨host, hhost, rfl⟩ := hfirst
  obtain ⟨host', hhost', rfl⟩ := hsecond
  exact ⟨host', hhost.trans hhost', rfl⟩

theorem isTold_notify (desk : Desk) (message : String) (options : Host.NotifyOptions) :
    IsTold desk (desk.onHost fun h => h.notify message options) :=
  ⟨_, desk.host.isTold_notify message options, rfl⟩

/-- The name under which a file is created, if one is answered. -/
def fileName? [Machine] (desk : Desk) : Except Failure (Option String) :=
  (desk.host.prompt "fileName" (some desk.session.stepFileName)).map (Option.filter (· != ""))

end Desk

namespace Command

variable [Machine] {desk : Desk}

/-! ### Creating a file -/

section CreateFile

variable {name : String}

/-- Without content of its own a file gets the code for the sample steps. -/
theorem createFile_none :
    createFile none = defaultContent >>= fun content => createFile (some content) :=
  rfl

theorem runOn_createFile_of_error {e : Failure} (content : String)
    (hname : desk.fileName? = .error e) :
    (createFile (some content)).runOn desk = (.error e, desk) := by
  have hprompt := map_eq_error_iff.mp hname
  rw [createFile]
  simp only [runOn_bind, runOn_pure, runOn_get, runOn_prompt, hprompt]

theorem runOn_createFile_of_none (content : String) (hname : desk.fileName? = .ok none) :
    (createFile (some content)).runOn desk =
      (.ok { status := .cancelled, targetPath := none, message := none }, desk) := by
  obtain ⟨answer, hprompt, hanswer⟩ := map_eq_ok_iff.mp hname
  rw [createFile]
  simp only [runOn_bind, runOn_pure, runOn_get, runOn_prompt, hprompt]
  split
  · rfl
  · rfl
  · rename_i hempty
    rw [Option.filter_some_pos (by simpa using hempty)] at hanswer
    cases hanswer

/-- The outcome of creating a file that was written or refused. -/
def createdFile (name : String) (written : Bool) : FileOutcome :=
  if written then { status := .created, targetPath := some name, message := none }
  else
    { status := .failed, targetPath := some name,
      message := some ("Failed to create file: " ++ name) }

/-- What a host is told when a file was written or refused. -/
def tellCreated (name : String) (written : Bool) (h : Host) : Host :=
  if written then h.notify ("Step definition file created: " ++ name) {}
  else h.notify ("Failed to create file: " ++ name) { level := "error" }

/-- With a name to write to, creating a file is writing it and telling how that went. -/
theorem runOn_createFile (content : String) (hname : desk.fileName? = .ok (some name)) :
    (createFile (some content)).runOn desk =
      match (desk.host.writeFile desk.files name content).1 with
      | .error e => (.error e, desk.afterWriting name content)
      | .ok written =>
        (.ok (createdFile name written),
          (desk.afterWriting name content).onHost (tellCreated name written)) := by
  obtain ⟨answer, hprompt, hanswer⟩ := map_eq_ok_iff.mp hname
  obtain ⟨rfl, hne⟩ := Option.filter_eq_some_iff.mp hanswer
  rw [createFile]
  simp only [runOn_bind, runOn_pure, runOn_get, runOn_prompt, hprompt]
  split
  · rename_i hnone
    cases hnone
  · rename_i hempty
    obtain rfl := Option.some.inj hempty
    cases hne
  · rename_i other hother hsome
    obtain rfl := Option.some.inj hsome
    simp only [runOn_bind, runOn_writeFile]
    cases (desk.host.writeFile desk.files name content).1 with
    | error e => rfl
    | ok written => cases written <;> rfl

theorem exists_runOn_createFile (content : String) (hname : desk.fileName? = .ok (some name)) :
    ∃ after, (desk.afterWriting name content).IsTold after ∧
      (createFile (some content)).runOn desk =
        ((desk.host.writeFile desk.files name content).1.map (createdFile name), after) := by
  rw [runOn_createFile content hname]
  cases (desk.host.writeFile desk.files name content).1 with
  | error e => exact ⟨_, .refl _, rfl⟩
  | ok written =>
    refine ⟨_, ⟨_, ?_, rfl⟩, rfl⟩
    rw [tellCreated]
    split
    · exact Host.isTold_notify _ _ _
    · exact Host.isTold_notify _ _ _

end CreateFile

/-! ### Configuring -/

section Configure

variable {config : Config} {values : Object}

theorem runOn_configure_of_error {e : Failure}
    (hconfig : desk.config = .error e) :
    configure.runOn desk = (.error e, desk) := by
  rw [configure, runOn_bind, runOn_currentConfig, ← Desk.config, hconfig]

/-- One question of `configure`. -/
def ask (key : String) (value : Json) : Command (Option Json) := do
  match (← get).host.answers.get? key with
  | none => return some value
  | some _ => return (← prompt key none).map .str

theorem runOn_ask (key : String) (value : Json) (desk : Desk) :
    (ask key value).runOn desk = (desk.host.answerTo key value, desk) := by
  rw [ask, runOn_bind, runOn_get]
  dsimp only
  rw [Host.answerTo]
  cases desk.host.answers.get? key with
  | none => rfl
  | some _ =>
    dsimp only
    rw [runOn_bind, runOn_prompt]
    cases desk.host.prompt key none <;> rfl

theorem configure_eq : configure = (do
    let config ← currentConfig []
    match ← ask "packageName" config.packageName with
    | none => return { status := .cancelled, config }
    | some packageName =>
      match ← ask "className" config.className with
      | none => return { status := .cancelled, config }
      | some className =>
        let baseTestClass ← ask "baseTestClass" (config.baseTestClass.getD (.str ""))
        let _ ← storing fun store files now => store.update files now
          [ ("packageName", packageName), ("className", className),
            ("baseTestClass", baseTestClass.getD (.str "")) ]
        let _ ← notify "Configuration updated successfully!" {}
        return { status := .updated, config := ← currentConfig [] }) :=
  rfl

/-- An answer that cannot be taken ends `configure`. -/
theorem runOn_configure_of_answers {e : Failure} (hconfig : desk.config = .ok config)
    (hfails : desk.host.configured config = .error e) :
    configure.runOn desk = (.error e, desk) := by
  rw [Host.configured] at hfails
  rw [configure_eq, runOn_bind, runOn_currentConfig, ← Desk.config, hconfig]
  simp only [runOn_bind, runOn_ask]
  rcases bind_eq_error_iff.mp hfails with hpackage | ⟨packageName, hpackage, hfails⟩
  · rw [hpackage]
  · rw [hpackage]
    cases packageName with
    | none => cases hfails
    | some packageName =>
      simp only [runOn_bind, runOn_ask]
      rcases bind_eq_error_iff.mp hfails with hclass | ⟨className, hclass, hfails⟩
      · rw [hclass]
      · rw [hclass]
        cases className with
        | none => cases hfails
        | some className =>
          rcases bind_eq_error_iff.mp hfails with hbase | ⟨_, -, hfails⟩
          · simp only [runOn_bind, runOn_ask, hbase]
          · cases hfails

theorem runOn_configure_of_none (hconfig : desk.config = .ok config)
    (hcancelled : desk.host.configured config = .ok none) :
    configure.runOn desk = (.ok { status := .cancelled, config }, desk) := by
  rw [Host.configured] at hcancelled
  rw [configure_eq, runOn_bind, runOn_currentConfig, ← Desk.config, hconfig]
  simp only [runOn_bind, runOn_ask]
  obtain ⟨packageName, hpackage, hcancelled⟩ := bind_eq_ok_iff.mp hcancelled
  rw [hpackage]
  cases packageName with
  | none => rfl
  | some packageName =>
    simp only [runOn_bind, runOn_ask]
    obtain ⟨className, hclass, hcancelled⟩ := bind_eq_ok_iff.mp hcancelled
    rw [hclass]
    cases className with
    | none => rfl
    | some className =>
      obtain ⟨_, -, hcancelled⟩ := bind_eq_ok_iff.mp hcancelled
      cases hcancelled

/-- An answered `configure` is one update, and gives the configuration after that. -/
theorem exists_runOn_configure (hconfig : desk.config = .ok config)
    (hvalues : desk.host.configured config = .ok (some values)) {stored : Except Failure Object}
    {store : Store} {files : FileTree}
    (hupdate : desk.session.store.update desk.files desk.now values = (stored, store, files)) :
    ∃ after, (desk.withStore store files).IsTold after ∧
      configure.runOn desk =
        (stored.bind fun _ => (desk.withStore store files).config.map
          fun config => { status := .updated, config }, after) := by
  rw [Host.configured] at hvalues
  rw [configure_eq, runOn_bind, runOn_currentConfig, ← Desk.config, hconfig]
  simp only [runOn_bind, runOn_ask]
  obtain ⟨packageName, hpackage, hvalues⟩ := bind_eq_ok_iff.mp hvalues
  rw [hpackage]
  cases packageName with
  | none => cases hvalues
  | some packageName =>
    simp only [runOn_bind, runOn_ask]
    obtain ⟨className, hclass, hvalues⟩ := bind_eq_ok_iff.mp hvalues
    rw [hclass]
    cases className with
    | none => cases hvalues
    | some className =>
      obtain ⟨baseTestClass, hbase, hvalues⟩ := bind_eq_ok_iff.mp hvalues
      obtain rfl := Option.some.inj (Except.ok.inj hvalues)
      simp only [runOn_bind, runOn_ask, hbase, runOn_update hupdate]
      cases stored with
      | error e => exact ⟨_, .refl _, rfl⟩
      | ok updated =>
        refine ⟨_, Desk.isTold_notify _ "Configuration updated successfully!" {}, ?_⟩
        rw [Except.bind]
        simp only [runOn_notify]
        rw [← runOn_bind]
        exact runOn_currentConfig_map _ _

theorem isTold_host_configure (desk : Desk) : desk.host.IsTold (configure.runOn desk).2.host := by
  cases hdesk : desk.config with
  | error e =>
    rw [runOn_configure_of_error hdesk]
    exact .refl _
  | ok config =>
    rcases hvalues : desk.host.configured config with e | (_ | values)
    · rw [runOn_configure_of_answers hdesk hvalues]
      exact .refl _
    · rw [runOn_configure_of_none hdesk hvalues]
      exact .refl _
    · rcases hupdate : desk.session.store.update desk.files desk.now values with
        ⟨stored, store, files⟩
      obtain ⟨_, ⟨host, htold, rfl⟩, hrun⟩ := exists_runOn_configure hdesk hvalues hupdate
      rw [hrun]
      exact htold

end Configure

/-! ### Following up -/

section Follow

variable {code : String}

/-- What follows when code was generated, by the choice that was made. -/
theorem runOn_follow_createFile (code : String) (desk : Desk) :
    (follow code (some "Create File")).runOn desk =
      match (createFile (some code)).runOn desk with
      | (outcome, desk) => (outcome.map some, desk) := by
  rw [follow, runOn_bind]
  cases (createFile (some code)).runOn desk with
  | mk outcome after => cases outcome <;> rfl

theorem runOn_follow_viewOutput (code : String) (desk : Desk) :
    (follow code (some "View Output")).runOn desk =
      (.ok none, desk.onHost fun h => h.showPreview code "java") :=
  rfl

theorem runOn_follow_configure (code : String) (desk : Desk) :
    (follow code (some "Configure")).runOn desk =
      match configure.runOn desk with
      | (outcome, desk) => (outcome.map fun _ => none, desk) := by
  rw [follow, runOn_bind]
  cases configure.runOn desk with
  | mk outcome after => cases outcome <;> rfl

theorem runOn_follow_none (code : String) (desk : Desk) :
    (follow code none).runOn desk = (.ok none, desk) :=
  rfl

end Follow

end Command

end StepGlue
