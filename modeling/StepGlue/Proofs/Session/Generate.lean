import StepGlue.Proofs.Generation
import StepGlue.Proofs.Session.Configure
import StepGlue.Proofs.Session.FollowUp
import StepGlue.Proofs.Settings.Preserved
import StepGlue.Proofs.Workspace.Failure

/-!
# What generating for a host ends in

The host alone decides how far a command goes that generates step definitions: whether there is a
document, whether it is taken for a feature, and which text of it has step lines. A command that
stops early has told the host so and has done nothing else.
-/

namespace StepGlue

open Json (Object)
open Text

/-! ### The decision -/

namespace Host

variable (h : Host) (selectionOnly : Bool)

/-- The text by which a document is taken for a feature. -/
def sample : String :=
  if h.documentText.getD "" = "" then h.selection.getD "" else h.documentText.getD ""

/-- Whether a document that does not look like a feature is to be used nevertheless. -/
def continuesNonFeature : Bool :=
  match h.answers.get? "continueNonFeature" with
  | some (.str answer) => answer == "Yes"
  | _ => false

/-- The text that step definitions are made for. -/
def chosenText : String :=
  if selectionOnly || h.selection.isSome then h.selection.getD "" else h.documentText.getD ""

/-- What a text is good for. -/
def textStatus (text : String) : GenerateStatus :=
  if text.toList.all isBlank then .empty
  else if (splitLines text).any StepLine.isStepLine then .generated
  else .noSteps

def decision : GenerateStatus :=
  if h.documentText = none ∧ h.selection = none then .noDocument
  else if !StepLine.looksLikeFeature h.documentName h.sample && !h.continuesNonFeature then
    .cancelled
  else textStatus (h.chosenText selectionOnly)

theorem choice_continueNonFeature (level : String) :
    (h.choice { key := some "continueNonFeature", level, choices := ["Yes", "No"] } == some "Yes") =
      h.continuesNonFeature := by
  rw [choice_of_key h (by decide), continuesNonFeature]
  cases h.answers.get? "continueNonFeature" with
  | none => rfl
  | some v =>
    cases v with
    | str answer =>
      by_cases hyes : answer = "Yes"
      · simp [hyes]
      · by_cases hno : answer = "No" <;> simp [hyes, hno]
    | _ => rfl

end Host

namespace Command

variable [Machine] {desk before : Desk}

/-! ### Generating -/

section GenerateFrom

variable {text : String} {overrides : Object} {generation : Generation}

theorem runOn_generateFrom_of_error {e : Failure} (info : String)
    (h : desk.session.generate desk.files text overrides = .error e) :
    (generateFrom text info overrides).runOn desk = (.error e, desk) := by
  rw [generateFrom, runOn_bind, runOn_generateCode, h]

theorem exists_runOn_generateFrom_of_nil (info : String)
    (h : desk.session.generate desk.files text overrides = .ok generation)
    (hmethods : generation.methods = []) :
    ∃ after, desk.IsTold after ∧
      (generateFrom text info overrides).runOn desk =
        (.ok (.without .noSteps (some info)), after) := by
  rw [generateFrom, runOn_bind, runOn_generateCode, h]
  dsimp only
  rw [if_pos (List.isEmpty_iff.mpr hmethods), runOn_bind, runOn_notify]
  exact ⟨_, desk.isTold_notify _ _, rfl⟩

/-- Code that was generated is copied, and then followed up. -/
theorem exists_runOn_generateFrom (info : String) (htold : desk.IsTold before)
    (h : before.session.generate before.files text overrides = .ok generation)
    (hmethods : generation.methods ≠ []) :
    ∃ file after, desk.FollowsUp generation.code file after ∧
      (generateFrom text info overrides).runOn before =
        (file.map fun file =>
          { status := .generated, selectionInfo := some info, generation := some generation,
            followUp := desk.host.followUp?, file }, after) := by
  have hchoice : (before.onHost fun h => h.setClipboard generation.code).host.choice
      { key := some "followUp", choices := followUps } = desk.host.followUp? := by
    obtain ⟨_, ⟨_, rfl⟩, rfl⟩ := htold
    rfl
  rw [generateFrom, runOn_bind, runOn_generateCode, h]
  dsimp only
  rw [if_neg (by simpa using hmethods), runOn_bind, runOn_mapHost]
  dsimp only
  rw [runOn_bind, runOn_notify]
  dsimp only
  generalize "Generated " ++ toString generation.methods.length ++ " step definition(s)" ++ info ++
    " and copied to clipboard!" = message
  obtain ⟨file, after, hfollows, hrun⟩ := exists_runOn_follow (htold.isCopied
    (Desk.isTold_notify _ message { key := some "followUp", choices := followUps }))
  refine ⟨file, after, hfollows, ?_⟩
  rw [hchoice, runOn_bind, hrun]
  cases file <;> rfl

end GenerateFrom

section Generate

variable {selectionOnly : Bool} {overrides : Object}

/-- What is done with a text that a host has chosen. -/
def generateChosen (chosen : String × String) (overrides : Object) : Command GenerateOutcome := do
  let (text, info) := chosen
  if (trim text.toList).isEmpty then
    let _ ← notify "No content to process." { level := "warning" }
    return .without .empty (some info)
  generateFrom text info overrides

theorem generate_eq (selectionOnly : Bool) (overrides : Object) :
    generate selectionOnly overrides = (do
      let host := (← get).host
      if host.documentText.isNone && host.selection.isNone then
        let _ ← notify "No active document found. Please open a Cucumber feature file."
          { level := "error" }
        return .without .noDocument none
      let chosen := chosenText selectionOnly host.documentText host.selection
      if StepLine.looksLikeFeature host.documentName host.sample then
        generateChosen chosen overrides
      else if ← confirmsNonFeature then
        generateChosen chosen overrides
      else
        return .without .cancelled none) :=
  rfl

omit [Machine] in
theorem exists_runOn_confirmsNonFeature (desk : Desk) :
    ∃ after, desk.IsTold after ∧
      confirmsNonFeature.runOn desk = (.ok desk.host.continuesNonFeature, after) := by
  refine ⟨_, desk.isTold_notify
    "This doesn't appear to be a Cucumber feature file. Continue anyway?"
    { key := some "continueNonFeature", level := "warning", choices := ["Yes", "No"] }, ?_⟩
  rw [confirmsNonFeature, runOn_bind, runOn_notify]
  dsimp only
  rw [runOn_pure, Host.choice_continueNonFeature]

omit [Machine] in
/-- The text that is worked on is the chosen one, perhaps without the blanks at its ends. -/
theorem fst_chosenText (h : Host) (selectionOnly : Bool) :
    (chosenText selectionOnly h.documentText h.selection).1 = h.chosenText selectionOnly ∨
      (chosenText selectionOnly h.documentText h.selection).1 =
        String.ofList (trim (h.chosenText selectionOnly).toList) := by
  rw [chosenText, Host.chosenText]
  cases selectionOnly || h.selection.isSome with
  | true => exact .inr rfl
  | false => exact .inl rfl

omit [Machine] in
theorem isEmpty_trim_chosenText (h : Host) (selectionOnly : Bool) :
    (trim (chosenText selectionOnly h.documentText h.selection).1.toList).isEmpty =
      (h.chosenText selectionOnly).toList.all isBlank := by
  rw [Bool.eq_iff_iff, List.isEmpty_iff, ← trim_eq_nil_iff]
  rcases fst_chosenText h selectionOnly with htext | htext
  · rw [htext]
  · rw [htext, String.toList_ofList, trim_trim]

theorem runOn_generateFrom_chosenText (h : Host) (selectionOnly : Bool) (info : String)
    (overrides : Object) (desk : Desk) :
    (generateFrom (chosenText selectionOnly h.documentText h.selection).1 info overrides).runOn
        desk = (generateFrom (h.chosenText selectionOnly) info overrides).runOn desk := by
  rcases fst_chosenText h selectionOnly with htext | htext
  · rw [htext]
  · rw [htext, generateFrom, runOn_bind, runOn_generateCode, Session.generate]
    simp only [Generation.ofText_trim]
    rw [generateFrom, runOn_bind, runOn_generateCode, Session.generate]

/-- How a command that generates proceeds: it stops early, or goes on with the text that was
chosen. -/
inductive Proceeds (desk : Desk) (selectionOnly : Bool) (overrides : Object) :
    Except Failure GenerateOutcome × Desk → Prop
  | stops {status : GenerateStatus} {info : Option String} {after : Desk}
      (hdecision : desk.host.decision selectionOnly = status)
      (hearly : status = .noDocument ∨ status = .cancelled ∨ status = .empty)
      (htold : desk.IsTold after) :
      Proceeds desk selectionOnly overrides (.ok (.without status info), after)
  | goesOn {info : String} {before : Desk}
      (hdecision : desk.host.decision selectionOnly =
        if (splitLines (desk.host.chosenText selectionOnly)).any StepLine.isStepLine then .generated
        else .noSteps)
      (htold : desk.IsTold before) :
      Proceeds desk selectionOnly overrides
        ((generateFrom (desk.host.chosenText selectionOnly) info overrides).runOn before)

theorem proceeds_generateChosen (overrides : Object)
    (hdecision : desk.host.decision selectionOnly =
      Host.textStatus (desk.host.chosenText selectionOnly)) (htold : desk.IsTold before) :
    Proceeds desk selectionOnly overrides ((generateChosen
      (chosenText selectionOnly desk.host.documentText desk.host.selection)
        overrides).runOn before) := by
  rw [Host.textStatus] at hdecision
  rw [generateChosen, isEmpty_trim_chosenText]
  by_cases hblank : (desk.host.chosenText selectionOnly).toList.all isBlank
  · rw [if_pos hblank] at hdecision
    rw [if_pos hblank, runOn_bind, runOn_notify]
    exact .stops hdecision (.inr (.inr rfl)) (htold.trans (before.isTold_notify _ _))
  · rw [if_neg hblank] at hdecision
    rw [if_neg hblank, runOn_generateFrom_chosenText]
    exact .goesOn hdecision htold

theorem proceeds_generate (desk : Desk) (selectionOnly : Bool) (overrides : Object) :
    Proceeds desk selectionOnly overrides ((generate selectionOnly overrides).runOn desk) := by
  have hnone : (desk.host.documentText.isNone && desk.host.selection.isNone) = true ↔
      desk.host.documentText = none ∧ desk.host.selection = none := by simp
  rw [generate_eq, runOn_bind, runOn_get]
  dsimp only
  by_cases hdocument : desk.host.documentText = none ∧ desk.host.selection = none
  · rw [if_pos (hnone.mpr hdocument), runOn_bind, runOn_notify]
    exact .stops (if_pos hdocument) (.inl rfl) (desk.isTold_notify _ _)
  · rw [if_neg (mt hnone.mp hdocument)]
    by_cases hlooks : StepLine.looksLikeFeature desk.host.documentName desk.host.sample
    · rw [if_pos hlooks]
      refine proceeds_generateChosen overrides ?_ (.refl desk)
      rw [Host.decision, if_neg hdocument, hlooks]
      rfl
    · obtain ⟨before, htold, hconfirms⟩ := exists_runOn_confirmsNonFeature desk
      rw [if_neg hlooks, runOn_bind, hconfirms]
      dsimp only
      by_cases hcontinues : desk.host.continuesNonFeature
      · rw [if_pos hcontinues]
        refine proceeds_generateChosen overrides ?_ htold
        rw [Host.decision, if_neg hdocument, hcontinues]
        simp
      · rw [if_neg hcontinues]
        refine .stops ?_ (.inr (.inl rfl)) htold
        rw [Host.decision, if_neg hdocument, if_pos (by simp [hlooks, hcontinues])]

end Generate

end Command

/-! ### The outcome -/

namespace Desk

variable [Machine] {desk before after : Desk} {selectionOnly : Bool} {overrides : Object}
  {generation : Generation}

/-- What is generated for the text that the host has chosen, under the settings as they are. -/
def generated (desk : Desk) (selectionOnly : Bool) (overrides : Object) :
    Except Failure Generation :=
  desk.session.generate desk.files (desk.host.chosenText selectionOnly) overrides

theorem generated_eq {config : Config}
    (hconfig : desk.session.currentConfig desk.files overrides = .ok config)
    (selectionOnly : Bool) :
    desk.generated selectionOnly overrides =
      Generation.ofText config desk.session.indentSize (desk.host.chosenText selectionOnly) := by
  rw [Desk.generated, Session.generate, hconfig]
  rfl

/-- Overrides that can be read are read over a configuration. -/
theorem exists_config {config : Config}
    (h : desk.session.currentConfig desk.files overrides = .ok config) :
    ∃ config, desk.config = .ok config := by
  obtain ⟨_, hstored, hrest⟩ := bind_eq_ok_iff.mp h
  obtain ⟨layered, hlayered, -⟩ := bind_eq_ok_iff.mp hrest
  exact (Session.exists_currentConfig_iff hstored).mpr ⟨layered, hlayered⟩

/-- How a command that generates step definitions ends. -/
inductive Ends (desk : Desk) (selectionOnly : Bool) (overrides : Object) :
    Except Failure GenerateOutcome × Desk → Prop
  | early {status : GenerateStatus} {info : Option String} {after : Desk}
      (hdecision : desk.host.decision selectionOnly = status)
      (hearly : status = .noDocument ∨ status = .cancelled ∨ status = .empty)
      (htold : desk.IsTold after) :
      Ends desk selectionOnly overrides (.ok (.without status info), after)
  | failed {e : Failure} {after : Desk}
      (hdecision : desk.host.decision selectionOnly = .noSteps ∨
        desk.host.decision selectionOnly = .generated)
      (hgenerated : desk.generated selectionOnly overrides = .error e) (htold : desk.IsTold after) :
      Ends desk selectionOnly overrides (.error e, after)
  | noSteps {info : String} {generation : Generation} {after : Desk}
      (hdecision : desk.host.decision selectionOnly = .noSteps)
      (hgenerated : desk.generated selectionOnly overrides = .ok generation)
      (htold : desk.IsTold after) :
      Ends desk selectionOnly overrides (.ok (.without .noSteps (some info)), after)
  | generated {info : String} {generation : Generation} {file : Except Failure (Option FileOutcome)}
      {after : Desk} (hdecision : desk.host.decision selectionOnly = .generated)
      (hgenerated : desk.generated selectionOnly overrides = .ok generation)
      (hfollows : desk.FollowsUp generation.code file after) :
      Ends desk selectionOnly overrides (file.map fun file =>
        { status := .generated, selectionInfo := some info, generation := some generation,
          followUp := desk.host.followUp?, file }, after)

/-- What the host was told on the way does not show in what is generated. -/
theorem generate_eq_of_isTold (htold : desk.IsTold before) :
    before.session.generate before.files (desk.host.chosenText selectionOnly) overrides =
      desk.generated selectionOnly overrides := by
  obtain ⟨_, ⟨_, rfl⟩, rfl⟩ := htold
  rfl

theorem ends_generateFrom_of_error {e : Failure} {info : String}
    (hdecision : desk.host.decision selectionOnly =
      if (splitLines (desk.host.chosenText selectionOnly)).any StepLine.isStepLine then .generated
      else .noSteps)
    (htold : desk.IsTold before) (h : desk.generated selectionOnly overrides = .error e) :
    desk.Ends selectionOnly overrides ((Command.generateFrom (desk.host.chosenText selectionOnly)
      info overrides).runOn before) := by
  rw [Command.runOn_generateFrom_of_error info ((generate_eq_of_isTold htold).trans h)]
  refine .failed ?_ h htold
  rw [hdecision]
  split
  · exact .inr rfl
  · exact .inl rfl

theorem ends_generate {config : Config}
    (hconfig : desk.session.currentConfig desk.files overrides = .ok config) :
    desk.Ends selectionOnly overrides ((Command.generate selectionOnly overrides).runOn desk) := by
  have hproceeds := Command.proceeds_generate desk selectionOnly overrides
  generalize (Command.generate selectionOnly overrides).runOn desk = run at hproceeds ⊢
  cases hproceeds with
  | stops hdecision hearly htold => exact .early hdecision hearly htold
  | goesOn hdecision htold =>
    rename_i info before
    cases hgenerated : desk.generated selectionOnly overrides with
    | error e => exact ends_generateFrom_of_error hdecision htold hgenerated
    | ok generation =>
      have hsame := (generate_eq_of_isTold htold).trans hgenerated
      have hmethods : generation.methods = [] ↔
          (splitLines (desk.host.chosenText selectionOnly)).any StepLine.isStepLine = false := by
        rw [generated_eq hconfig] at hgenerated
        exact Generation.methods_eq_nil_iff hgenerated
      by_cases hnil : generation.methods = []
      · obtain ⟨after, hafter, hrun⟩ :=
          Command.exists_runOn_generateFrom_of_nil info hsame hnil
        rw [hmethods.mp hnil] at hdecision
        rw [hrun]
        exact .noSteps hdecision hgenerated (htold.trans hafter)
      · obtain ⟨file, after, hfollows, hrun⟩ :=
          Command.exists_runOn_generateFrom info htold hsame hnil
        rw [Bool.eq_true_of_not_eq_false (mt hmethods.mpr hnil)] at hdecision
        rw [hrun]
        exact .generated hdecision hgenerated hfollows

/-- Whether a follow-up that writes some code to a file, or configures, does not fail. -/
def CanFollowUp (desk : Desk) (code : String) : Prop :=
  (desk.host.followUp? = some "Create File" → ∃ answer, desk.fileName? = .ok answer ∧
    ∀ name, answer = some name →
      ∃ written, (desk.host.writeFile desk.files name code).1 = .ok written) ∧
  (desk.host.followUp? = some "Configure" →
    ∃ outcome, (Command.configure.runOn desk).1 = .ok outcome)

/-- What is given and left behind when step definitions were generated. -/
structure IsFollowedUp (desk : Desk) (code : String) (file : Except Failure (Option FileOutcome))
    (after : Desk) : Prop where
  returns_iff : (∃ outcome, file = .ok outcome) ↔ desk.CanFollowUp code
  raises : ∀ e, file = .error e → desk.host.followUp? = some "Configure" ∨
    desk.host.followUp? = some "Create File" ∧ (desk.fileName? = .error e ∨
      e = .nulInPath ∨ (∃ u, e = .unencodable u) ∨ e = .tooDeep .descending)
  inMemory : desk.session.store.path = none → desk.session.defaults.AllNames Json.IsCopied →
    desk.host.followUp? = some "Configure" → ∀ e, file = .error e ↔ desk.host.AsksInVain e
  isSome_iff : ∀ outcome, file = .ok outcome →
    (outcome.isSome ↔ desk.host.followUp? = some "Create File")
  created : desk.host.followUp? = some "Create File" → file =
    match desk.fileName? with
    | .error e => .error e
    | .ok none => .ok (some { status := .cancelled, targetPath := none, message := none })
    | .ok (some name) =>
      (desk.host.writeFile desk.files name code).1.map (some ∘ Command.createdFile name)
  clipboard : after.host.clipboard = some code
  preview : (after.host.preview, after.host.previewLanguage) =
    if desk.host.followUp? = some "View Output" then (some code, some "java")
    else (desk.host.preview, desk.host.previewLanguage)
  written : desk.host.followUp? = some "Create File" → ∀ name, desk.fileName? = .ok (some name) →
    after.host.writtenFiles = (desk.host.writeFile desk.files name code).2.1.writtenFiles ∧
      after.files = (desk.host.writeFile desk.files name code).2.2
  unwritten : (desk.host.followUp? ≠ some "Create File" ∨
      ∀ name, desk.fileName? ≠ .ok (some name)) →
    after.host.writtenFiles = desk.host.writtenFiles ∧
      (desk.host.followUp? ≠ some "Configure" → after.files = desk.files)
  unconfigured : desk.host.followUp? ≠ some "Configure" → after.session = desk.session ∧
    after.session.store.document after.files = desk.session.store.document desk.files
  configured : desk.host.followUp? = some "Configure" →
    after.session = (Command.configure.runOn desk).2.session ∧
      after.files = (Command.configure.runOn desk).2.files

theorem FollowsUp.isFollowedUp {code : String} {file : Except Failure (Option FileOutcome)}
    {config : Config} (hconfig : desk.config = .ok config)
    (hplace : desk.session.store.HasPlace desk.files)
    (hspared : ∀ name, desk.fileName? = .ok (some name) →
      desk.session.store.IsSpared desk.files (desk.host.Writes name))
    (h : desk.FollowsUp code file after) : desk.IsFollowedUp code file after := by
  cases h with
  | nothing hchoice hafter =>
    obtain ⟨_, rfl⟩ := hafter
    constructor <;> simp [CanFollowUp, hchoice]
  | viewed hchoice hafter =>
    obtain ⟨_, rfl⟩ := hafter
    constructor <;> simp [CanFollowUp, hchoice, onHost, Host.showPreview]
  | unanswered hchoice hname hafter =>
    obtain ⟨_, rfl⟩ := hafter
    constructor <;> simp [CanFollowUp, hchoice, hname]
  | unnamed hchoice hname hafter =>
    obtain ⟨_, rfl⟩ := hafter
    constructor <;> simp [CanFollowUp, hchoice, hname]
  | written hchoice hname hafter =>
    rename_i name
    obtain ⟨_, rfl⟩ := hafter
    have hpreview := desk.host.preview_writeFile desk.files name code
    -- directories that are made for the file do not show in the settings either
    have hdocument := Store.document_of_frame hplace
      (desk.host.frame_writeFile desk.files name code) (hspared name hname)
    constructor
    · simp [CanFollowUp, hchoice, hname, exists_map_eq_ok_iff]
    · exact fun e he => .inr ⟨hchoice, .inr (Host.writeFile_error (map_eq_error_iff.mp he))⟩
    · simp [hchoice]
    · intro outcome houtcome
      obtain ⟨written, -, rfl⟩ := map_eq_ok_iff.mp houtcome
      simp [hchoice]
    · intro _
      rw [hname]
    · rfl
    · rw [hchoice]
      exact hpreview
    · intro _ other hother
      obtain rfl := Option.some.inj (Except.ok.inj (hname.symm.trans hother))
      exact ⟨rfl, rfl⟩
    · simp [hchoice, hname]
    · exact fun _ => ⟨rfl, hdocument⟩
    · simp [hchoice]
  | configured hchoice hafter =>
    obtain ⟨_, rfl⟩ := hafter
    obtain ⟨_, htold⟩ := Command.isTold_host_configure desk
    constructor
    · simp [CanFollowUp, hchoice, exists_map_eq_ok_iff]
    · exact fun _ _ => .inl hchoice
    · intro hpath hdefaults _ e
      exact map_eq_error_iff.trans
        (Command.configure_eq_error_iff_inMemory hpath hconfig hdefaults)
    · intro outcome houtcome
      obtain ⟨_, -, rfl⟩ := map_eq_ok_iff.mp houtcome
      simp [hchoice]
    · simp [hchoice]
    · rfl
    · rw [htold, hchoice]
      rfl
    · simp [hchoice]
    · simp [hchoice, htold]
    · simp [hchoice]
    · exact fun _ => ⟨rfl, rfl⟩

/-- Whether a result and a desk are what the host has decided for a command that generates. -/
structure IsDecided (desk : Desk) (selectionOnly : Bool) (overrides : Object)
    (result : Except Failure GenerateOutcome) (after : Desk) : Prop where
  returns_iff : (∃ outcome, result = .ok outcome) ↔
    (desk.host.decision selectionOnly = .noSteps ∨ desk.host.decision selectionOnly = .generated →
      ∃ generation, desk.generated selectionOnly overrides = .ok generation ∧
        (desk.host.decision selectionOnly = .generated → desk.CanFollowUp generation.code))
  status : ∀ outcome, result = .ok outcome → outcome.status = desk.host.decision selectionOnly
  stopped : (desk.host.decision selectionOnly ≠ .generated ∨
      ∃ e, desk.generated selectionOnly overrides = .error e) →
    desk.IsTold after ∧ ∀ outcome, result = .ok outcome →
      outcome.generation = none ∧ outcome.followUp = none ∧ outcome.file = none
  generated : desk.host.decision selectionOnly = .generated → ∀ generation,
    desk.generated selectionOnly overrides = .ok generation →
      desk.IsFollowedUp generation.code (result.map GenerateOutcome.file) after ∧
        ∀ outcome, result = .ok outcome →
          outcome.generation = some generation ∧ outcome.followUp = desk.host.followUp?

theorem Ends.isDecided {run : Except Failure GenerateOutcome × Desk} {config : Config}
    (hconfig : desk.config = .ok config)
    (hplace : desk.session.store.HasPlace desk.files)
    (hspared : ∀ name, desk.fileName? = .ok (some name) →
      desk.session.store.IsSpared desk.files (desk.host.Writes name))
    (h : desk.Ends selectionOnly overrides run) :
    desk.IsDecided selectionOnly overrides run.1 run.2 := by
  cases h with
  | early hdecision hearly htold =>
    have hnoSteps : desk.host.decision selectionOnly ≠ .noSteps := by
      rcases hearly with rfl | rfl | rfl <;> simp [hdecision]
    have hgenerated : desk.host.decision selectionOnly ≠ .generated := by
      rcases hearly with rfl | rfl | rfl <;> simp [hdecision]
    constructor
    · exact iff_of_true ⟨_, rfl⟩ fun hlate => (hlate.elim hnoSteps hgenerated).elim
    · intro outcome houtcome
      rw [← Except.ok.inj houtcome, hdecision]
      rfl
    · refine fun _ => ⟨htold, fun outcome houtcome => ?_⟩
      rw [← Except.ok.inj houtcome]
      exact ⟨rfl, rfl, rfl⟩
    · exact fun hdecided => absurd hdecided hgenerated
  | failed hdecision hgenerated htold =>
    have hnone : ∀ generation, desk.generated selectionOnly overrides ≠ .ok generation := by
      simp [hgenerated]
    constructor
    · refine iff_of_false (by simp) fun hreturns => ?_
      obtain ⟨generation, hok, -⟩ := hreturns hdecision
      exact hnone generation hok
    · simp
    · exact fun _ => ⟨htold, by simp⟩
    · exact fun _ generation hok => absurd hok (hnone generation)
  | noSteps hdecision hgenerated htold =>
    constructor
    · exact iff_of_true ⟨_, rfl⟩ fun _ => ⟨_, hgenerated, by simp [hdecision]⟩
    · intro outcome houtcome
      rw [← Except.ok.inj houtcome, hdecision]
      rfl
    · refine fun _ => ⟨htold, fun outcome houtcome => ?_⟩
      rw [← Except.ok.inj houtcome]
      exact ⟨rfl, rfl, rfl⟩
    · simp [hdecision]
  | generated hdecision hgenerated hfollows =>
    rename_i file after
    have hfollowed := hfollows.isFollowedUp hconfig hplace hspared
    constructor
    · rw [exists_map_eq_ok_iff, hfollowed.returns_iff]
      simp [hdecision, hgenerated]
    · intro outcome houtcome
      obtain ⟨_, -, rfl⟩ := map_eq_ok_iff.mp houtcome
      exact hdecision.symm
    · simp [hdecision, hgenerated]
    · intro _ generation hok
      obtain rfl := Except.ok.inj (hgenerated.symm.trans hok)
      refine ⟨?_, fun outcome houtcome => ?_⟩
      · cases file <;> exact hfollowed
      · obtain ⟨_, -, rfl⟩ := map_eq_ok_iff.mp houtcome
        exact ⟨rfl, rfl⟩

theorem not_exists_outcome {config : Config}
    (hconfig : desk.session.currentConfig desk.files overrides = .ok config)
    (hplace : desk.session.store.HasPlace desk.files)
    (hspared : ∀ name, desk.fileName? = .ok (some name) →
      desk.session.store.IsSpared desk.files (desk.host.Writes name))
    (hdecision : desk.host.decision selectionOnly = .generated)
    (hfails : ∀ generation, desk.generated selectionOnly overrides = .ok generation →
      ¬desk.CanFollowUp generation.code) :
    ¬∃ outcome, ((Command.generate selectionOnly overrides).runOn desk).1 = .ok outcome := by
  obtain ⟨_, hread⟩ := exists_config hconfig
  rw [((ends_generate hconfig).isDecided hread hplace hspared).returns_iff]
  intro hreturns
  obtain ⟨generation, hgenerated, hcan⟩ := hreturns (.inr hdecision)
  exact hfails generation hgenerated (hcan hdecision)

/-- **The host decides what generating ends in.** If there is a configuration, a command that
generates step definitions ends in the status that its host decides on, unless the code cannot be
generated, or a file or the settings cannot be written afterwards. Only in the last status anything
but notifications is left behind: the code in the clipboard, and what the chosen follow-up makes of
it. A file that is created leaves the settings alone if it is not the file of these. -/
theorem isDecided_generate {config : Config}
    (hconfig : desk.session.currentConfig desk.files overrides = .ok config)
    (hparent : ∀ path, desk.session.store.path = some path →
      desk.files.isDirectory path.parent = .ok true)
    (hspared : ∀ name, desk.fileName? = .ok (some name) →
      desk.session.store.IsSpared desk.files (desk.host.Writes name)) :
    desk.IsDecided selectionOnly overrides ((Command.generate selectionOnly overrides).runOn desk).1
      ((Command.generate selectionOnly overrides).runOn desk).2 := by
  obtain ⟨stored, hstored, -⟩ := bind_eq_ok_iff.mp hconfig
  obtain ⟨document, hdocument, -⟩ := bind_eq_ok_iff.mp hstored
  obtain ⟨_, hread⟩ := exists_config hconfig
  exact (ends_generate hconfig).isDecided hread
    (Store.hasPlace_of_isDirectory_parent hparent hdocument) hspared

end Desk

/-! ### A preview, and three commands that fail -/

section Examples

attribute [local instance] Machine.plain

/-- A desk with settings of its own in memory, for a document with one step. -/
def stepDesk (indentSize : Int) (workspace : Option Workspace) (answers : Object) : Desk where
  session :=
    { store := Store.inMemory Store.defaultSection, defaults := Config.default
      stepFileName := "StepDefinitions.java", indentSize }
  host := Host.ofRequest (some "Given a") none none workspace answers
  files := .empty
  now := "t"

def previewDesk : Desk :=
  stepDesk 4 none [("followUp", .str "View Output")]

theorem isDecided_generate_of_preview :
    previewDesk.host.decision false = .generated ∧
      previewDesk.host.followUp? = some "View Output" ∧
      previewDesk.IsDecided false [] ((Command.generate false []).runOn previewDesk).1
        ((Command.generate false []).runOn previewDesk).2 := by
  refine ⟨by decide +kernel, by decide, ?_⟩
  have hconfig : previewDesk.session.currentConfig previewDesk.files [] = .ok Config.default := rfl
  exact Desk.isDecided_generate hconfig nofun fun _ _ => nofun

/-- A desk with an indentation that is no machine integer. -/
def wideDesk : Desk :=
  stepDesk (-10000000000000000000) none []

/-- A desk whose settings are to be in a file, and are changed where a directory is in its place. -/
def blockedDesk : Desk :=
  { stepDesk 4 none [("followUp", .str "Configure")] with
    session := { (stepDesk 4 none []).session with store := Store.onSettingsFile }
    files := { FileTree.empty with top := .directory "s.json" .empty .empty } }

def surrogateName : String :=
  String.ofList [Char.ofNat 0xF0000]

/-- A desk whose host writes to a file with a lone surrogate for a name. -/
def surrogateDesk : Desk :=
  stepDesk 4 (some { root := [] })
    [("followUp", .str "Create File"), ("fileName", .str surrogateName)]

/-- Spaces that cannot be counted, settings in the way of a directory, and a name that no file
has. -/
theorem not_exists_outcome_of_failures :
    (wideDesk.session.currentConfig wideDesk.files [] = .ok Config.default ∧
      wideDesk.host.decision false = .generated ∧
      ¬∃ outcome, ((Command.generate false []).runOn wideDesk).1 = .ok outcome) ∧
    (blockedDesk.session.currentConfig blockedDesk.files [] = .ok Config.default ∧
      blockedDesk.host.decision false = .generated ∧
      ¬∃ outcome, ((Command.generate false []).runOn blockedDesk).1 = .ok outcome) ∧
    let _ := Machine.unbounded (.ofBlock? (some 0))
    surrogateDesk.session.currentConfig surrogateDesk.files [] = .ok Config.default ∧
      surrogateDesk.host.decision false = .generated ∧
      ¬∃ outcome, ((Command.generate false []).runOn surrogateDesk).1 = .ok outcome := by
  refine ⟨⟨rfl, by decide +kernel, ?_⟩, ⟨rfl, by decide +kernel, ?_⟩, rfl, by decide +kernel, ?_⟩
  · have hconfig : wideDesk.session.currentConfig wideDesk.files [] = .ok Config.default := rfl
    refine Desk.not_exists_outcome hconfig nofun (fun _ _ => nofun) (by decide +kernel)
      fun generation hgenerated _ => ?_
    rw [Desk.generated_eq hconfig] at hgenerated
    have hsize : ¬Indentation.Counts wideDesk.session.indentSize 1 := by decide
    exact Generation.not_exists_ofText Generation.namesOnOneLine_default hsize _
      ⟨generation, hgenerated⟩
  · have hconfig : blockedDesk.session.currentConfig blockedDesk.files [] = .ok Config.default :=
      rfl
    refine Desk.not_exists_outcome hconfig ?_ (fun _ _ path _ hwrites => ?_) (by decide +kernel)
      fun generation _ hcan => ?_
    · rintro path ⟨⟩ -
      rfl
    · obtain ⟨_, hnone, -⟩ := hwrites
      cases hnone
    · obtain ⟨outcome, houtcome⟩ := hcan.2 (by decide)
      cases houtcome
  · let _ := Machine.unbounded (.ofBlock? (some 0))
    have hconfig :
        surrogateDesk.session.currentConfig surrogateDesk.files [] = .ok Config.default := rfl
    refine Desk.not_exists_outcome hconfig nofun (fun _ _ => nofun) (by decide +kernel)
      fun generation _ hcan => ?_
    obtain ⟨answer, hanswer, hwrites⟩ := hcan.1 (by decide)
    obtain rfl : some surrogateName = answer := Except.ok.inj hanswer
    obtain ⟨written, hwritten⟩ := hwrites surrogateName rfl
    cases hwritten

end Examples

end StepGlue
