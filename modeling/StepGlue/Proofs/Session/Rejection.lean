import StepGlue.Proofs.Session.Generate

/-!
# Why an action rejects a value

An action that is known may fail all the same, and some of its failures reject a value: the document
of the settings cannot be made out or names an unknown framework, a name in them or an answer cannot
be shown, a file has no name or text that can be written, or the settings cannot be stored. There
are no other such failures, whatever is stored and whatever the host answers.
-/

namespace StepGlue

open Json (Object)
open Text

variable {e : Failure}

/-! ### Failures that reject no value -/

theorem ClassSource.rejectsValue_of_addImports {merged : List (ImportKey × Json)}
    {further : List Json} (h : addImports merged further = .error e) : e.rejectsValue = false := by
  induction further generalizing merged with
  | nil => cases h
  | cons item rest ih =>
    rw [addImports] at h
    rcases bind_eq_error_iff.mp h with hkey | ⟨key, -, hrest⟩
    · cases item <;> cases hkey <;> rfl
    · exact ih hrest

theorem Indentation.rejectsValue_of_width {size : Int} {level : Nat}
    (h : width size level = .error e) : e.rejectsValue = false := by
  rw [width] at h
  split at h
  · exact Except.error.inj h ▸ rfl
  · cases h

section Settings

variable [Machine]

theorem Indentation.rejectsValue_of_indent {size : Int} {spaces : Nat}
    {lines : List (Nat × List Char)} (h : indent size spaces lines = .error e) :
    e.rejectsValue = false := by
  induction lines generalizing spaces with
  | nil => cases h
  | cons line rest ih =>
    rw [indent] at h
    rcases bind_eq_error_iff.mp h with hwidth | ⟨here, -, h⟩
    · exact rejectsValue_of_width hwidth
    · split at h
      · rcases bind_eq_error_iff.mp h with hrest | ⟨_, -, hpure⟩
        · exact ih hrest
        · cases hpure
      · exact Except.error.inj h ▸ rfl

/-- No class rejects a value, only a name that cannot be shown in it. -/
theorem Generation.ofText_eq_error_iff (hrejects : e.rejectsValue) {config : Config} {size : Int}
    {text : String} :
    ofText config size text = .error e ↔ ClassSource.Names.ofConfig config = .error e := by
  rw [ofText, ofLines]
  constructor
  · intro h
    rcases bind_eq_error_iff.mp h with hassemble | ⟨source, -, h⟩
    · rcases bind_eq_error_iff.mp hassemble with hnames | ⟨_, -, hpure⟩
      · exact hnames
      · cases hpure
    · rcases bind_eq_error_iff.mp h with hformat | ⟨_, -, hpure⟩
      · rcases bind_eq_error_iff.mp hformat with hlines | ⟨_, -, hpure⟩
        · rw [Indentation.rejectsValue_of_indent hlines] at hrejects
          cases hrejects
        · cases hpure
      · cases hpure
  · intro hnames
    exact bind_eq_error_iff.mpr (.inl (bind_eq_error_iff.mpr (.inl hnames)))

theorem Store.rejectsValue_of_copy {stored : Object} (h : copy stored = .error e) :
    e.rejectsValue = false := by
  rw [copy] at h
  split at h
  · cases h
  · exact Except.error.inj h ▸ rfl

/-! ### Settings that cannot be read -/

namespace Config

variable {stored values : Object} {name : String} {below : List Json}

omit [Machine] in
theorem rejectsValue_of_listOver (h : listOver values name below = .error e) :
    e.rejectsValue = false := by
  rw [listOver] at h
  split at h
  · rename_i v _
    cases v <;> cases h <;> rfl
  · cases h

/-- Whether a value that is to name a framework cannot be shown, or shows none, as a failure
says. -/
def IsNoFramework (v : Json) (e : Failure) : Prop :=
  v.display = .error e ∨ ∃ text, v.display = .ok text ∧ Framework.ofTag? text = none ∧
    e = .unknownFramework (StandIns.quoted text)

/-- Whether a section has lists that can be read, and a framework that is none as a failure says. -/
structure NamesNoFramework (stored : Object) (e : Failure) : Prop where
  imports : ∀ v, stored.given? "imports" = some v → ∃ items, Elements v items
  annotations : ∀ v, stored.given? "annotations" = some v → ∃ items, Elements v items
  framework : ∃ v, stored.get? "framework" = some v ∧ v.isGiven ∧ IsNoFramework v e

theorem frameworkOver_eq_error_iff {below : Framework} :
    frameworkOver values below = .error e ↔
      ∃ v, values.get? "framework" = some v ∧ v.isGiven ∧ IsNoFramework v e := by
  rw [frameworkOver]
  cases values.get? "framework" with
  | none => simp
  | some v =>
    by_cases hgiven : v.isGiven
    · simp only [hgiven, if_true, Option.some.injEq, exists_eq_left', true_and]
      rw [bind_eq_error_iff, IsNoFramework]
      refine or_congr_right (exists_congr fun text => and_congr_right fun _ => ?_)
      rw [Framework.ofJson]
      cases Framework.ofTag? text with
      | some framework => simp
      | none => simp [eq_comm]
    · simp [hgiven]

/-- Only the framework of a section can be rejected. -/
theorem layer_eq_error_iff (hrejects : e.rejectsValue) {config : Config} :
    config.layer stored = .error e ↔ NamesNoFramework stored e := by
  rw [layer]
  constructor
  · intro h
    rcases bind_eq_error_iff.mp h with himports | ⟨_, himports, h⟩
    · rw [rejectsValue_of_listOver himports] at hrejects
      cases hrejects
    · rcases bind_eq_error_iff.mp h with hannotations | ⟨_, hannotations, h⟩
      · rw [rejectsValue_of_listOver hannotations] at hrejects
        cases hrejects
      · rcases bind_eq_error_iff.mp h with hframework | ⟨_, -, hpure⟩
        · exact ⟨exists_listOver_iff.mp ⟨_, himports⟩, exists_listOver_iff.mp ⟨_, hannotations⟩,
            frameworkOver_eq_error_iff.mp hframework⟩
        · cases hpure
  · rintro ⟨himports, hannotations, hframework⟩
    obtain ⟨imports, himports⟩ := exists_listOver_iff.mpr himports
    obtain ⟨annotations, hannotations⟩ := exists_listOver_iff.mpr hannotations
    rw [himports, hannotations, frameworkOver_eq_error_iff.mpr hframework]
    rfl

end Config

namespace Desk

variable {desk : Desk}

/-- The settings are rejected with their document, or for the framework in them. -/
theorem config_eq_error_iff (hrejects : e.rejectsValue) : desk.config = .error e ↔
    desk.session.store.document desk.files = .error e ∨
      ∃ stored, desk.snapshot = .ok stored ∧ Config.NamesNoFramework stored e := by
  rw [Desk.config, Session.currentConfig, bind_eq_error_iff]
  refine or_congr ?_ (exists_congr fun stored => and_congr_right fun _ => ?_)
  · rw [Store.snapshot, bind_eq_error_iff, or_iff_left]
    rintro ⟨document, -, hcopy⟩
    rw [Store.rejectsValue_of_copy hcopy] at hrejects
    cases hrejects
  · rw [← Config.layer_eq_error_iff hrejects, bind_eq_error_iff, or_iff_left]
    rintro ⟨config, -, hlayer⟩
    cases hlayer

/-- Code is rejected with the settings, or for a name in them that cannot be shown. -/
theorem generate_eq_error_iff (hrejects : e.rejectsValue) {text : String} :
    desk.session.generate desk.files text [] = .error e ↔ desk.config = .error e ∨
      ∃ config, desk.config = .ok config ∧ ClassSource.Names.ofConfig config = .error e := by
  rw [Session.generate, bind_eq_error_iff]
  simp only [Generation.ofText_eq_error_iff hrejects]
  rfl

end Desk

/-! ### Actions -/

namespace Desk

/-- Whether an action makes a class. -/
def Generates (desk : Desk) : QuickAction.Name → Prop
  | .generate =>
    desk.host.decision false = .noSteps ∨ desk.host.decision false = .generated
  | .createFile => True
  | .configure | .about => False

/-- Whether an action reads the settings. -/
def ReadsSettings (desk : Desk) (action : QuickAction.Name) : Prop :=
  desk.Generates action ∨ action = .configure

/-- Whether an action has some code for a file. -/
def HasCode (desk : Desk) (code : String) : QuickAction.Name → Prop
  | .generate => desk.host.decision false = .generated ∧
      desk.host.followUp? = some "Create File" ∧
      ∃ generation, desk.generated false [] = .ok generation ∧ code = generation.code
  | .createFile => ∃ generation,
      desk.session.generate desk.files Command.sampleText [] = .ok generation ∧
        code = generation.code
  | .configure | .about => False

/-- Whether an action configures. -/
def Configures (desk : Desk) : QuickAction.Name → Prop
  | .generate => desk.host.decision false = .generated ∧
      desk.host.followUp? = some "Configure" ∧
      ∃ generation, desk.generated false [] = .ok generation
  | .configure => True
  | .createFile | .about => False

/-- Whether some code cannot be put into the file that the host has named, or none can be made
out. -/
def CannotCreate (desk : Desk) (code : String) (e : Failure) : Prop :=
  desk.fileName? = .error e ∨ ∃ name, desk.fileName? = .ok (some name) ∧
    (desk.host.writeFile desk.files name code).1 = .error e

/-- Whether the host has answered `configure` in vain, or the names it gave cannot be stored. -/
def CannotConfigure (desk : Desk) (config : Config) (e : Failure) : Prop :=
  desk.host.AsksInVain e ∨ ∃ values, desk.host.configured config = .ok (some values) ∧
    (desk.session.store.update desk.files desk.now values).1 = .error e

/-- What is in the way of an action if it rejects a value. -/
inductive Obstructs (desk : Desk) (action : QuickAction.Name) (e : Failure) : Prop
  | document (hreads : desk.ReadsSettings action)
      (hdocument : desk.session.store.document desk.files = .error e) : Obstructs desk action e
  | framework {stored : Object} (hreads : desk.ReadsSettings action)
      (hstored : desk.snapshot = .ok stored) (hframework : Config.NamesNoFramework stored e) :
      Obstructs desk action e
  | names {config : Config} (hgenerates : desk.Generates action)
      (hconfig : desk.config = .ok config)
      (hnames : ClassSource.Names.ofConfig config = .error e) : Obstructs desk action e
  | file {code : String} (hcode : desk.HasCode code action) (hfails : desk.CannotCreate code e) :
      Obstructs desk action e
  | store {config : Config} (hconfigures : desk.Configures action)
      (hconfig : desk.config = .ok config) (hfails : desk.CannotConfigure config e) :
      Obstructs desk action e

/-- How a command that generates ends, whether or not the settings can be read. -/
theorem ends_generate_default (desk : Desk) :
    desk.Ends false [] ((Command.generate false []).runOn desk) := by
  cases hconfig : desk.config with
  | ok config => exact ends_generate hconfig
  | error e =>
    have hproceeds := Command.proceeds_generate desk false []
    generalize (Command.generate false []).runOn desk = run at hproceeds ⊢
    cases hproceeds with
    | stops hdecision hearly htold => exact .early hdecision hearly htold
    | goesOn hdecision htold =>
      have hgenerated : desk.generated false [] = .error e :=
        bind_eq_error_iff.mpr (.inl hconfig)
      exact ends_generateFrom_of_error hdecision htold hgenerated

end Desk

/-! ### Configuring -/

/-- Whether no object of the settings has a name twice, no default name has an integer that is too
long, and the section of the settings is not the member that takes the time. -/
structure Session.KeepsObjects (s : Session) : Prop where
  holdsSection : s.store.HoldsSection
  defaults : s.defaults.AllNames Json.IsReadable
  memory : (Json.obj s.store.memory).WellFormed

namespace Desk

variable {desk : Desk} {config : Config} {values updated : Object}

/-- What holds of texts, of the default names and of what is stored holds of what is configured. -/
theorem forall_mem_configured {P : Json → Prop} (htext : ∀ text, P (.str text))
    (hdefaults : desk.session.defaults.AllNames P)
    (hstored : ∀ document, desk.session.store.document desk.files = .ok document →
      ∀ setting ∈ desk.session.store.sectionOf document, P setting.2)
    (hconfig : desk.config = .ok config)
    (hvalues : desk.host.configured config = .ok (some values)) :
    ∀ setting ∈ values, P setting.2 := by
  obtain ⟨stored, hsnapshot, hresolves⟩ := Session.resolves_of_currentConfig hconfig
  obtain ⟨document, hdocument, rfl⟩ := Store.exists_document_of_snapshot hsnapshot
  exact Host.forall_mem_configured htext (hresolves.allNames hdefaults (hstored document hdocument))
    hvalues

theorem wellFormed_configured (h : desk.session.KeepsObjects) (hconfig : desk.config = .ok config)
    (hvalues : desk.host.configured config = .ok (some values)) : (Json.obj values).WellFormed := by
  have hdefaults := h.defaults.mono fun _ hname => hname.wellFormed
  refine .obj ?_ (forall_mem_configured Json.WellFormed.str hdefaults
    (fun document hdocument => (Store.wellFormed_stored h.memory hdocument).member) hconfig hvalues)
  rw [Host.keys_configured hvalues]
  decide

/-- Once names are stored there is a configuration again. -/
theorem exists_config_of_update (h : desk.session.KeepsObjects)
    (hconfig : desk.config = .ok config) (hvalues : desk.host.configured config = .ok (some values))
    {store : Store} {files : FileTree}
    (hupdate : desk.session.store.update desk.files desk.now values = (.ok updated, store, files)) :
    ∃ config, (desk.withStore store files).config = .ok config := by
  obtain ⟨hsnapshot, document, hdocument, rfl⟩ := Store.snapshot_of_update h.holdsSection
    (wellFormed_configured h hconfig hvalues) hupdate
  obtain ⟨stored, hstored, -⟩ := Session.resolves_of_currentConfig hconfig
  obtain rfl := Store.sectionOf_eq_of_snapshot hdocument hstored
  have hreadable : Config.IsReadable (desk.session.store.sectionOf document) :=
    (Session.exists_currentConfig_iff_isReadable hstored).mp ⟨config, hconfig⟩
  exact (Session.exists_currentConfig_iff_isReadable
    (s := { desk.session with store }) hsnapshot).mpr
      (hreadable.update_names (Host.keys_configured hvalues))

end Desk

namespace Command

variable {desk : Desk}

theorem configure_eq_error_iff (hkeeps : desk.session.KeepsObjects) :
    (configure.runOn desk).1 = .error e ↔ desk.config = .error e ∨
      ∃ config, desk.config = .ok config ∧ desk.CannotConfigure config e := by
  cases hconfig : desk.config with
  | error e' =>
    rw [runOn_configure_of_error hconfig]
    simp
  | ok config =>
    simp only [Desk.CannotConfigure, reduceCtorEq, Except.ok.injEq, exists_eq_left', false_or,
      ← Host.configured_eq_error_iff config]
    rcases hvalues : desk.host.configured config with e' | (_ | values)
    · rw [runOn_configure_of_answers hconfig hvalues]
      simp
    · rw [runOn_configure_of_none hconfig hvalues]
      simp
    · rcases hupdate : desk.session.store.update desk.files desk.now values with
        ⟨stored, store, files⟩
      obtain ⟨_, -, hrun⟩ := exists_runOn_configure hconfig hvalues hupdate
      rw [hrun]
      cases stored with
      | error e' => simp [Except.bind, hupdate]
      | ok updated =>
        obtain ⟨config', hconfig'⟩ := Desk.exists_config_of_update hkeeps hconfig hvalues hupdate
        simp [Except.bind, Except.map, hconfig', hupdate]

end Command

/-! ### Generating and creating a file -/

namespace Command

variable {desk : Desk} {code : String}

theorem createFile_some_eq_error_iff :
    ((createFile (some code)).runOn desk).1 = .error e ↔ desk.CannotCreate code e := by
  rw [Desk.CannotCreate]
  rcases hname : desk.fileName? with e' | (_ | name)
  · rw [runOn_createFile_of_error code hname]
    simp
  · rw [runOn_createFile_of_none code hname]
    simp
  · obtain ⟨_, -, hrun⟩ := exists_runOn_createFile code hname
    rw [hrun]
    simp [map_eq_error_iff]

theorem createFile_none_eq_error_iff : ((createFile none).runOn desk).1 = .error e ↔
    desk.session.generate desk.files sampleText [] = .error e ∨ ∃ generation,
      desk.session.generate desk.files sampleText [] = .ok generation ∧
        desk.CannotCreate generation.code e := by
  rw [createFile_none, defaultContent, runOn_bind, runOn_bind, runOn_generateCode]
  cases desk.session.generate desk.files sampleText [] with
  | error e' => simp
  | ok generation =>
    dsimp only
    rw [runOn_pure]
    simp [createFile_some_eq_error_iff]

end Command

namespace Desk

variable {desk after : Desk} {code : String} {file : Except Failure (Option FileOutcome)}
  {selectionOnly : Bool} {overrides : Object} {run : Except Failure GenerateOutcome × Desk}

theorem FollowsUp.eq_error_iff (h : desk.FollowsUp code file after) : file = .error e ↔
    desk.host.followUp? = some "Create File" ∧ desk.CannotCreate code e ∨
    desk.host.followUp? = some "Configure" ∧ (Command.configure.runOn desk).1 = .error e := by
  rw [CannotCreate]
  cases h with
  | nothing hchoice hafter => simp [hchoice]
  | viewed hchoice hafter => simp [hchoice]
  | unanswered hchoice hname hafter => simp [hchoice, hname]
  | unnamed hchoice hname hafter => simp [hchoice, hname]
  | written hchoice hname hafter => simp [hchoice, hname, map_eq_error_iff]
  | configured hchoice hafter => simp [hchoice, map_eq_error_iff]

/-- A command that generates fails before it follows up, or with the follow-up. -/
theorem Ends.eq_error_iff (h : desk.Ends selectionOnly overrides run) : run.1 = .error e ↔
    (desk.host.decision selectionOnly = .noSteps ∨
        desk.host.decision selectionOnly = .generated) ∧
      desk.generated selectionOnly overrides = .error e ∨
    desk.host.decision selectionOnly = .generated ∧ ∃ generation,
      desk.generated selectionOnly overrides = .ok generation ∧
      (desk.host.followUp? = some "Create File" ∧ desk.CannotCreate generation.code e ∨
        desk.host.followUp? = some "Configure" ∧
          (Command.configure.runOn desk).1 = .error e) := by
  cases h with
  | early hdecision hearly htold =>
    subst hdecision
    rcases hearly with hearly | hearly | hearly <;> simp [hearly]
  | failed hdecision hgenerated htold => simp [hdecision, hgenerated]
  | noSteps hdecision hgenerated htold => simp [hdecision, hgenerated]
  | generated hdecision hgenerated hfollows =>
    simp [hdecision, hgenerated, map_eq_error_iff, hfollows.eq_error_iff]

end Desk

/-! ### All actions -/

theorem Desk.obstructs_iff {desk : Desk} {action : QuickAction.Name} (hrejects : e.rejectsValue) :
    desk.Obstructs action e ↔
      desk.ReadsSettings action ∧ desk.config = .error e ∨
      (desk.Generates action ∧ ∃ config, desk.config = .ok config ∧
        ClassSource.Names.ofConfig config = .error e) ∨
      (∃ code, desk.HasCode code action ∧ desk.CannotCreate code e) ∨
      desk.Configures action ∧
        ∃ config, desk.config = .ok config ∧ desk.CannotConfigure config e := by
  rw [config_eq_error_iff hrejects]
  constructor
  · rintro (⟨hreads, hdocument⟩ | ⟨hreads, hstored, hframework⟩ | ⟨hgenerates, hconfig, hnames⟩ |
      ⟨hcode, hfails⟩ | ⟨hconfigures, hconfig, hfails⟩)
    · exact .inl ⟨hreads, .inl hdocument⟩
    · exact .inl ⟨hreads, .inr ⟨_, hstored, hframework⟩⟩
    · exact .inr (.inl ⟨hgenerates, _, hconfig, hnames⟩)
    · exact .inr (.inr (.inl ⟨_, hcode, hfails⟩))
    · exact .inr (.inr (.inr ⟨hconfigures, _, hconfig, hfails⟩))
  · rintro (⟨hreads, hdocument | ⟨stored, hstored, hframework⟩⟩ |
      ⟨hgenerates, config, hconfig, hnames⟩ | ⟨code, hcode, hfails⟩ |
      ⟨hconfigures, config, hconfig, hfails⟩)
    · exact .document hreads hdocument
    · exact .framework hreads hstored hframework
    · exact .names hgenerates hconfig hnames
    · exact .file hcode hfails
    · exact .store hconfigures hconfig hfails

namespace Command

variable {desk : Desk} (hkeeps : desk.session.KeepsObjects) (hrejects : e.rejectsValue)
include hkeeps hrejects

theorem generate_eq_error_iff_obstructs :
    ((generate false []).runOn desk).1 = .error e ↔ desk.Obstructs .generate e := by
  rw [(Desk.ends_generate_default desk).eq_error_iff, configure_eq_error_iff hkeeps,
    Desk.generated, Desk.generate_eq_error_iff hrejects, Desk.obstructs_iff hrejects]
  constructor
  · rintro (⟨hdecision, hconfig | hnames⟩ | ⟨hdecision, generation, hgenerated, hfollows⟩)
    · exact .inl ⟨.inl hdecision, hconfig⟩
    · exact .inr (.inl ⟨hdecision, hnames⟩)
    · rcases hfollows with ⟨hchoice, hfails⟩ | ⟨hchoice, hconfig | hfails⟩
      · exact .inr (.inr (.inl ⟨_, ⟨hdecision, hchoice, generation, hgenerated, rfl⟩, hfails⟩))
      · exact .inl ⟨.inl (.inr hdecision), hconfig⟩
      · exact .inr (.inr (.inr ⟨⟨hdecision, hchoice, generation, hgenerated⟩, hfails⟩))
  · rintro (⟨hdecision | hnever, hconfig⟩ | ⟨hdecision, hnames⟩ |
      ⟨code, ⟨hdecision, hchoice, generation, hgenerated, rfl⟩, hfails⟩ |
      ⟨⟨hdecision, hchoice, generation, hgenerated⟩, hfails⟩)
    · exact .inl ⟨hdecision, .inl hconfig⟩
    · cases hnever
    · exact .inl ⟨hdecision, .inr hnames⟩
    · exact .inr ⟨hdecision, generation, hgenerated, .inl ⟨hchoice, hfails⟩⟩
    · exact .inr ⟨hdecision, generation, hgenerated, .inr ⟨hchoice, .inr hfails⟩⟩

omit hkeeps in
theorem createFile_eq_error_iff_obstructs :
    ((createFile none).runOn desk).1 = .error e ↔ desk.Obstructs .createFile e := by
  rw [createFile_none_eq_error_iff, Desk.generate_eq_error_iff hrejects,
    Desk.obstructs_iff hrejects]
  constructor
  · rintro ((hconfig | hnames) | ⟨generation, hgenerated, hfails⟩)
    · exact .inl ⟨.inl trivial, hconfig⟩
    · exact .inr (.inl ⟨trivial, hnames⟩)
    · exact .inr (.inr (.inl ⟨_, ⟨generation, hgenerated, rfl⟩, hfails⟩))
  · rintro (⟨-, hconfig⟩ | ⟨-, hnames⟩ | ⟨code, ⟨generation, hgenerated, rfl⟩, hfails⟩ |
      ⟨hnever, -⟩)
    · exact .inl (.inl hconfig)
    · exact .inl (.inr hnames)
    · exact .inr ⟨generation, hgenerated, hfails⟩
    · exact hnever.elim

theorem configure_eq_error_iff_obstructs :
    (configure.runOn desk).1 = .error e ↔ desk.Obstructs .configure e := by
  rw [configure_eq_error_iff hkeeps, Desk.obstructs_iff hrejects]
  simp [Desk.ReadsSettings, Desk.Generates, Desk.HasCode, Desk.Configures]

omit hkeeps in
theorem about_eq_error_iff_obstructs :
    (about.runOn desk).1 = .error e ↔ desk.Obstructs .about e := by
  rw [about, runOn_bind, runOn_notify, Desk.obstructs_iff hrejects]
  simp [runOn_pure, Desk.ReadsSettings, Desk.Generates, Desk.HasCode, Desk.Configures]

/-- An action rejects a value exactly if it is not known, or something is in its way. -/
theorem runQuickAction_eq_error_iff (word : String) :
    ((runQuickAction word).runOn desk).1 = .error e ↔
      (QuickAction.ofWord? word = none ∧ e = .unknownAction word) ∨
        ∃ action, QuickAction.ofWord? word = some action ∧ desk.Obstructs action e := by
  rw [runQuickAction]
  cases hword : QuickAction.ofWord? word with
  | none =>
    change (Except.error (.unknownAction word) : Except Failure QuickOutcome) = .error e ↔ _
    simp [eq_comm]
  | some action =>
    cases action with
    | generate =>
      simp [bind_pure_comp, fst_runOn_map, map_eq_error_iff,
        generate_eq_error_iff_obstructs hkeeps hrejects]
    | createFile =>
      simp [bind_pure_comp, fst_runOn_map, map_eq_error_iff,
        createFile_eq_error_iff_obstructs hrejects]
    | configure =>
      simp [bind_pure_comp, fst_runOn_map, map_eq_error_iff,
        configure_eq_error_iff_obstructs hkeeps hrejects]
    | about =>
      simp [bind_pure_comp, fst_runOn_map, map_eq_error_iff,
        about_eq_error_iff_obstructs hrejects]

end Command

end Settings

end StepGlue
