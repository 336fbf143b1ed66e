import Mathlib.Logic.Function.Basic
import StepGlue.Proofs.Generation.Layout
import StepGlue.Proofs.Session.Overrides

/-!
# Two runs that differ in overrides

Commands are given one after another at one session, each for one of its hosts. Let another run
differ in overrides only, and let code be generated with these wherever it is with the others. Then
nothing tells the runs apart but generated code: what is stored after each command is the same, and
so is how each command ends, even if a command with other overrides is followed by a configuration.
-/

namespace StepGlue

open Json (Object)
open Text

/-- A command with what it is given. -/
inductive Instruction where
  | generate (selectionOnly : Bool) (overrides : Object)
  | generateCode (text : String) (overrides : Object)
  | createFile (content : Option String)
  | configure
  | update (values : Object)
  | addDefaults

/-- What a command returns. -/
inductive Answer where
  | generate (outcome : GenerateOutcome)
  | generateCode (generation : Generation)
  | createFile (outcome : FileOutcome)
  | configure (outcome : ConfigureOutcome)
  | update (config : Config)
  | addDefaults (stored : Object)

/-- An answer without the code that was generated. -/
def Answer.outline : Answer → Answer
  | generate outcome => generate outcome.outline
  | generateCode generation => generateCode generation.outline
  | other => other

namespace Instruction

/-- The same command with other overrides, if it takes any. -/
def withOverrides (overrides : Object) : Instruction → Instruction
  | generate selectionOnly _ => generate selectionOnly overrides
  | generateCode text _ => generateCode text overrides
  | other => other

variable [Machine]

def run : Instruction → Command Answer
  | generate selectionOnly overrides => .generate <$> Command.generate selectionOnly overrides
  | generateCode text overrides => .generateCode <$> Command.generateCode text overrides
  | createFile content => .createFile <$> Command.createFile content
  | configure => .configure <$> Command.configure
  | update values => .update <$> Command.updateSettings values
  | addDefaults => .addDefaults <$> Command.initializeSettings

/-- Whether a command gets as far with other overrides. -/
def GoesAlike (overrides' : Object) (desk : Desk) : Instruction → Prop
  | generate selectionOnly overrides =>
    desk.host.decision selectionOnly = .noSteps ∨ desk.host.decision selectionOnly = .generated →
      Command.GoesAlike desk (desk.host.chosenText selectionOnly) overrides overrides'
  | generateCode text overrides =>
    (∃ generation, desk.session.generate desk.files text overrides' = .ok generation) ↔
      ∃ generation, desk.session.generate desk.files text overrides = .ok generation
  | _ => True

end Instruction

section Runs

variable [Machine]

namespace Command

omit [Machine] in
theorem RunsAlike.map {α β γ δ : Type} {free : Prop} {view : α → γ} {view' : β → δ}
    {desk desk' : Desk} {c c' : Command α} {f : α → β}
    (h : RunsAlike free view (c.runOn desk) (c'.runOn desk'))
    (hf : ∀ {a b}, view b = view a → view' (f b) = view' (f a)) :
    RunsAlike free view' ((f <$> c).runOn desk) ((f <$> c').runOn desk') := by
  rw [← bind_pure_comp, ← bind_pure_comp]
  exact h.bind fun hview hsame hnext =>
    ⟨.ok (hf hview) (hsame.imp_right fun heq => by rw [heq]), hnext⟩

end Command

/-! ### One command -/

/-- Other overrides show in the code that a command generates, and nowhere else. -/
theorem Instruction.runsAlike_run {instruction : Instruction} {overrides' : Object}
    {desk desk' : Desk} (hgoes : instruction.GoesAlike overrides' desk)
    (halike : desk.Alike desk') :
    Command.RunsAlike (instruction.withOverrides overrides' ≠ instruction) Answer.outline
      (instruction.run.runOn desk) ((instruction.withOverrides overrides').run.runOn desk') := by
  have hsame : ∀ {α : Type} {c : Command α} {f : α → Answer} (free : Prop), c.Overlooks →
      Command.RunsAlike free Answer.outline ((f <$> c).runOn desk) ((f <$> c).runOn desk') := by
    intro α c f free hc
    have hruns : Command.RunsAlike free id (c.runOn desk) (c.runOn desk') := hc.runsAlike halike
    refine hruns.map fun heq => ?_
    rw [id, id] at heq
    rw [heq]
  cases instruction with
  | generate selectionOnly overrides =>
    simp only [withOverrides, ne_eq, generate.injEq, true_and]
    exact (Command.runsAlike_generate halike hgoes).map fun heq => congrArg Answer.generate heq
  | generateCode text overrides =>
    simp only [withOverrides, ne_eq, generateCode.injEq, true_and]
    have hruns : Command.RunsAlike (overrides' ≠ overrides) Generation.outline
        ((Command.generateCode text overrides).runOn desk)
        ((Command.generateCode text overrides').runOn desk') := by
      rw [Command.runOn_generateCode, Command.runOn_generateCode]
      exact ⟨halike.resultsAlike_generate hgoes, halike⟩
    exact hruns.map fun heq => congrArg Answer.generateCode heq
  | createFile content => exact hsame _ (Command.overlooks_createFile content)
  | configure => exact hsame _ Command.overlooks_configure
  | update values => exact hsame _ (Command.overlooks_updateSettings values)
  | addDefaults => exact hsame _ Command.overlooks_initializeSettings

/-- Code gets as far if no name has a second line and no step opens a block, and if it is not
written to a file or everything can be. -/
theorem Command.GoesAlike.of_namesOnOneLine {desk : Desk} {text : String}
    {overrides overrides' : Object} {config config' : Config}
    (hconfig : desk.session.currentConfig desk.files overrides = .ok config)
    (hconfig' : desk.session.currentConfig desk.files overrides' = .ok config')
    (hnames : config.NamesOnOneLine) (hnames' : config'.NamesOnOneLine)
    (hsteps : ∀ step ∈ Generation.stepsOf text, step.OpensNothing)
    (hcreate : desk.host.followUp? = some "Create File" → ∀ s, isEncodable s) :
    Command.GoesAlike desk text overrides overrides' where
  returns_iff := by
    rw [Session.generate, Session.generate, hconfig, hconfig']
    -- no name makes a difference to the spaces, so any will do
    obtain ⟨names, -⟩ := ClassSource.exists_names hnames
    exact (Generation.exists_ofText_iff_counts hnames' hsteps names).trans
      (Generation.exists_ofText_iff_counts hnames hsteps names).symm
  isEncodable_iff := fun hchoice {_ _} _ _ => iff_of_true (hcreate hchoice _) (hcreate hchoice _)

theorem Instruction.exists_withOverrides (instruction : Instruction) (desk : Desk) :
    ∃ overrides, instruction.GoesAlike overrides desk ∧
      instruction.withOverrides overrides = instruction := by
  cases instruction with
  | generate selectionOnly overrides => exact ⟨overrides, fun _ => .refl _ _ _, rfl⟩
  | generateCode text overrides => exact ⟨overrides, Iff.rfl, rfl⟩
  | createFile | configure | update | addDefaults => exact ⟨[], trivial, rfl⟩

/-! ### Runs -/

/-- A session, the files, and the hosts that commands are given for. -/
structure Scene (ι : Type) where
  session : Session
  files : FileTree
  hosts : ι → Host

/-- A command that is given for one of the hosts at some time. -/
structure Errand (ι : Type) where
  instruction : Instruction
  host : ι
  now : String

variable {ι : Type}

def Scene.desk (scene : Scene ι) (errand : Errand ι) : Desk where
  session := scene.session
  host := scene.hosts errand.host
  files := scene.files
  now := errand.now

/-- Two scenes with the same settings in memory that differ in code only. -/
structure Scene.Alike (scene scene' : Scene ι) : Prop where
  path_eq : scene.session.store.path = none
  session_eq : scene'.session = scene.session
  hosts_eq : ∀ i, (scene'.hosts i).outline = (scene.hosts i).outline
  files_eq : scene'.files.outline = scene.files.outline

namespace Errand

def withOverrides (errand : Errand ι) (overrides : Object) : Errand ι :=
  { errand with instruction := errand.instruction.withOverrides overrides }

variable [DecidableEq ι]

def result (errand : Errand ι) (scene : Scene ι) : Except Failure Answer :=
  (errand.instruction.run.runOn (scene.desk errand)).1

/-- The scene after a command, whether it returns or fails. -/
def after (errand : Errand ι) (scene : Scene ι) : Scene ι :=
  let desk := (errand.instruction.run.runOn (scene.desk errand)).2
  { session := desk.session
    files := desk.files
    hosts := Function.update scene.hosts errand.host desk.host }

end Errand

/-- What a command came to. -/
structure Report (ι : Type) where
  errand : Errand ι
  result : Except Failure Answer
  after : Scene ι

variable [DecidableEq ι]

/-- What commands come to that are given one after another. -/
def Scene.reports (scene : Scene ι) : List (Errand ι) → List (Report ι)
  | [] => []
  | errand :: errands =>
    { errand, result := errand.result scene, after := errand.after scene : Report ι } ::
      (errand.after scene).reports errands

/-- Whether some commands become others by other overrides that let the commands get as far. -/
inductive Scene.Varied : Scene ι → List (Errand ι) → List (Errand ι) → Prop
  | nil (scene : Scene ι) : Varied scene [] []
  | cons {scene : Scene ι} {errand : Errand ι} {errands errands' : List (Errand ι)}
      (overrides' : Object)
      (hgoes : errand.instruction.GoesAlike overrides' (scene.desk errand))
      (hrest : (errand.after scene).Varied errands errands') :
      Varied scene (errand :: errands) (errand.withOverrides overrides' :: errands')

/-- Whether what commands came to in two runs is the same but for code: settings, statuses,
follow-ups and whatever else is no code, and everything if the commands are the same. -/
structure Report.Agrees (report report' : Report ι) : Prop where
  snapshot_eq : report'.after.session.store.snapshot report'.after.files =
    report.after.session.store.snapshot report.after.files
  result : ResultsAlike True Answer.outline report.result report'.result
  result_eq : report'.errand = report.errand → report'.result = report.result
  after : report.after.Alike report'.after

variable {scene scene' : Scene ι} {errand : Errand ι} {errands errands' : List (Errand ι)}
  {overrides' : Object}

omit [Machine] [DecidableEq ι] in
theorem Scene.Alike.desk (h : scene.Alike scene') (errand : Errand ι) :
    (scene.desk errand).Alike (scene'.desk errand) :=
  ⟨h.path_eq, h.session_eq, h.hosts_eq errand.host, h.files_eq, rfl⟩

omit [Machine] in
theorem Scene.Alike.of_desk (h : scene.Alike scene') {i : ι} {desk desk' : Desk}
    (hdesk : desk.Alike desk') :
    Scene.Alike ⟨desk.session, desk.files, Function.update scene.hosts i desk.host⟩
      ⟨desk'.session, desk'.files, Function.update scene'.hosts i desk'.host⟩ := by
  refine ⟨hdesk.path_eq, hdesk.session_eq, fun j => ?_, hdesk.files_eq⟩
  by_cases hj : j = i
  · subst hj
    simpa only [Function.update_self] using hdesk.host_eq
  · simpa only [Function.update_of_ne hj] using h.hosts_eq j

omit [DecidableEq ι] in
theorem Scene.Alike.snapshot_eq (h : scene.Alike scene') :
    scene'.session.store.snapshot scene'.files = scene.session.store.snapshot scene.files := by
  rw [h.session_eq, Store.snapshot_inMemory h.path_eq, Store.snapshot_inMemory h.path_eq]

/-- One command leaves alike what was alike before. -/
theorem Scene.Alike.step (h : scene.Alike scene')
    (hgoes : errand.instruction.GoesAlike overrides' (scene.desk errand)) :
    Report.Agrees ⟨errand, errand.result scene, errand.after scene⟩
      ⟨errand.withOverrides overrides', (errand.withOverrides overrides').result scene',
        (errand.withOverrides overrides').after scene'⟩ := by
  obtain ⟨hresult, hafter⟩ := Instruction.runsAlike_run hgoes (h.desk errand)
  have hscene : (errand.after scene).Alike ((errand.withOverrides overrides').after scene') :=
    h.of_desk hafter
  refine ⟨hscene.snapshot_eq, hresult.of_free, fun hsame => hresult.eq ?_, hscene⟩
  exact not_not_intro (congrArg Errand.instruction hsame)

/-- The overrides may stay as they are. -/
theorem Scene.Varied.refl (scene : Scene ι) (errands : List (Errand ι)) :
    scene.Varied errands errands := by
  induction errands generalizing scene with
  | nil => exact .nil scene
  | cons errand errands ih =>
    obtain ⟨overrides, hgoes, hsame⟩ :=
      errand.instruction.exists_withOverrides (scene.desk errand)
    have hcons := Varied.cons overrides hgoes (ih (errand.after scene))
    rwa [Errand.withOverrides, hsame] at hcons

theorem Scene.Alike.reports_agree (h : scene.Alike scene')
    (hvaried : scene.Varied errands errands') :
    List.Forall₂ Report.Agrees (scene.reports errands) (scene'.reports errands') := by
  induction hvaried generalizing scene' with
  | nil scene => exact .nil
  | cons overrides' hgoes hrest ih =>
    have hstep := h.step hgoes
    exact .cons hstep (ih hstep.after)

/-- **Overrides do not leak.** Let a session keep its settings in memory, and let commands be given
in two runs that differ in overrides only, where code can be generated with the ones wherever it can
be with the others, and can be written where it is to be. Then after each command the same settings
are stored, each command comes to the same but for generated code, and a command that was given the
same overrides returns the same. -/
theorem Scene.reports_agree_of_varied (hpath : scene.session.store.path = none)
    (hvaried : scene.Varied errands errands') :
    List.Forall₂ Report.Agrees (scene.reports errands) (scene.reports errands') :=
  Scene.Alike.reports_agree ⟨hpath, rfl, fun _ => rfl, rfl⟩ hvaried

end Runs

/-! ### A configuration after generating, and a package that opens a block -/

section Examples

attribute [local instance] Machine.plain

/-- A host that configures after generating, and one that has the code in a file. -/
def twoHosts : Scene Bool where
  session := (stepDesk 4 none []).session
  files := .empty
  hosts creates := if creates
    then (stepDesk 4 (some { root := [] }) [("followUp", .str "Create File")]).host
    else (stepDesk 4 none [("followUp", .str "Configure"), ("className", .str "X")]).host

def errandsWith (overrides : Object) : List (Errand Bool) :=
  [ ⟨.generate false overrides, false, "t"⟩,
    ⟨.update [("baseTestClass", .str "B")], false, "t"⟩,
    ⟨.generate false [], true, "t"⟩,
    ⟨.configure, false, "t"⟩,
    ⟨.generateCode "When b" [], false, "t"⟩ ]

theorem reports_agree_of_configuration :
    twoHosts.session.store.path = none ∧
      twoHosts.Varied (errandsWith []) (errandsWith [("packageName", .str "p")]) ∧
      List.Forall₂ Report.Agrees (twoHosts.reports (errandsWith []))
        (twoHosts.reports (errandsWith [("packageName", .str "p")])) := by
  have hnames := Generation.namesOnOneLine_default
  have hnames' : { Config.default with packageName := .str "p" }.NamesOnOneLine :=
    { hnames with packageName := ClassSource.showsOnOneLine_str (oneLine_literal rfl) }
  have hsteps : ∀ step ∈ Generation.stepsOf "Given a", step.OpensNothing := by decide +kernel
  have hvaried : twoHosts.Varied (errandsWith []) (errandsWith [("packageName", .str "p")]) :=
    .cons [("packageName", .str "p")]
      (fun _ => .of_namesOnOneLine rfl rfl hnames hnames' hsteps fun hchoice => nomatch hchoice)
      (.refl _ _)
  exact ⟨rfl, hvaried, Scene.reports_agree_of_varied rfl hvaried⟩

/-- A package that ends a line with an opening brace. -/
def openConfig : Config :=
  { Config.default with packageName := .str "\x7b\n" }

/-- The names of the configuration by default. -/
def defaultNames : ClassSource.Names where
  package := some "com.example.stepdefinitions"
  imports := ClassSource.defaultImports
  base := none
  className := "StepDefinitions"

theorem ofConfig_default : ClassSource.Names.ofConfig Config.default = .ok defaultNames :=
  rfl

def openHeader : List String :=
  "package \x7b" :: ";" :: (ClassSource.headerLines defaultNames).tail

theorem sourceOf_openConfig :
    Generation.sourceOf openConfig "Feature: a" = .ok
      { header := ClassSource.lineText openHeader, methods := []
        footer := ClassSource.lineText ClassSource.footerLines } := by
  have hsteps : Generation.stepsOf "Feature: a" = [] := by decide +kernel
  have hheader : ClassSource.lineText
      (ClassSource.headerLines { defaultNames with package := some "\x7b\n" }) =
        ClassSource.lineText openHeader :=
    ClassSource.lineText_split "package \x7b" ";" (List.cons_ne_nil _ _)
  rw [Generation.sourceOf, hsteps, ← hheader]
  rfl

theorem isPlain_of_mem_openHeader : ∀ line ∈ openHeader, IsPlain line := by
  obtain ⟨names, hnames, honeLine⟩ := ClassSource.exists_names Generation.namesOnOneLine_default
  obtain rfl : defaultNames = names := Except.ok.inj (ofConfig_default.symm.trans hnames)
  have hdefault := ClassSource.isPlain_of_mem_headerLines honeLine
  rw [openHeader, List.forall_mem_cons, List.forall_mem_cons]
  exact ⟨.literal rfl, .literal rfl, fun line hline => hdefault line (List.mem_of_mem_tail hline)⟩

theorem not_exists_ofText_openConfig {size : Int} (hsize : ¬Indentation.Counts size 4) :
    ¬∃ generation, Generation.ofText openConfig size "Feature: a" = .ok generation := by
  have hmethods : ClassSource.AreRendered [] := nofun
  have hlines := ClassSource.splitOn_text hmethods isPlain_of_mem_openHeader
    (List.cons_ne_nil _ _) ClassSource.isPlain_of_mem_footerLines (List.cons_ne_nil _ _)
  rw [Generation.exists_ofText_iff sourceOf_openConfig]
  intro hfits
  refine hsize (hfits.counts 4 ?_)
  rw [Indentation.levelsOf, hlines]
  decide +kernel

/-- A desk with an indentation that can be counted three levels deep, but not four. -/
def deepDesk : Desk :=
  { stepDesk (-3000000000000000000) none [] with
    host := Host.ofRequest (some "Feature: a") none none none [] }

def deepScene : Scene Unit where
  session := deepDesk.session
  files := deepDesk.files
  hosts _ := deepDesk.host

def deepErrand (overrides : Object) : Errand Unit :=
  ⟨.generate false overrides, (), "t"⟩

/-- There are no steps in the text, but the class around them is laid out all the same. -/
theorem exists_answer_iff_of_deepDesk {overrides : Object} {config : Config}
    (hconfig : deepDesk.session.currentConfig deepDesk.files overrides = .ok config) :
    (∃ answer, (deepErrand overrides).result deepScene = .ok answer) ↔
      ∃ generation, Generation.ofText config deepDesk.session.indentSize "Feature: a" =
        .ok generation := by
  have hdecision : deepDesk.host.decision false = .noSteps := by decide +kernel
  have hread : deepDesk.config = .ok Config.default := rfl
  have hends : deepDesk.Ends false overrides ((Command.generate false overrides).runOn deepDesk) :=
    Desk.ends_generate hconfig
  have hdecided := hends.isDecided hread nofun (fun _ _ => nofun)
  have hresult : (deepErrand overrides).result deepScene =
      ((Command.generate false overrides).runOn deepDesk).1.map Answer.generate :=
    Command.fst_runOn_map _ _ _
  rw [hresult, exists_map_eq_ok_iff, hdecided.returns_iff, Desk.generated_eq hconfig, hdecision]
  simp only [reduceCtorEq, or_false, forall_const, false_imp_iff, and_true]
  rfl

/-- A command fails with some overrides, and does not without. -/
theorem not_reports_agree_of_openConfig :
    deepScene.session.store.path = none ∧
      deepScene.session.currentConfig deepScene.files [("packageName", .str "\x7b\n")] =
        .ok openConfig ∧
      ¬List.Forall₂ Report.Agrees (deepScene.reports [deepErrand []])
        (deepScene.reports [deepErrand [("packageName", .str "\x7b\n")]]) := by
  have hconfig : deepDesk.session.currentConfig deepDesk.files [] = .ok Config.default := rfl
  have hconfig' : deepDesk.session.currentConfig deepDesk.files [("packageName", .str "\x7b\n")] =
    .ok openConfig := rfl
  have hsteps : ∀ step ∈ Generation.stepsOf "Feature: a", step.OpensNothing := by decide +kernel
  have hcounts : Indentation.Counts deepDesk.session.indentSize 3 := by decide
  have hdeep : ¬Indentation.Counts deepDesk.session.indentSize 4 := by decide
  refine ⟨rfl, hconfig', fun hagree => ?_⟩
  obtain ⟨answer, hanswer⟩ := (exists_answer_iff_of_deepDesk hconfig).mpr
    ((Generation.exists_ofText_iff_counts Generation.namesOnOneLine_default hsteps
      defaultNames).mpr ⟨hcounts, within_none _⟩)
  have hnone := mt (exists_answer_iff_of_deepDesk hconfig').mp (not_exists_ofText_openConfig hdeep)
  simp only [Scene.reports, List.forall₂_cons] at hagree
  have hresult := hagree.1.result
  dsimp only at hresult
  rw [hanswer] at hresult
  generalize (deepErrand [("packageName", .str "\x7b\n")]).result deepScene = result
    at hnone hresult
  cases hresult with
  | ok => exact hnone ⟨_, rfl⟩

end Examples

end StepGlue
