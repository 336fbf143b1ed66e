import StepGlue.Proofs.Session.Alike
import StepGlue.Proofs.Session.Generate

/-!
# Overrides show in code only

A command that generates is given overrides, and nothing but the code that it generates depends on
them: not what it asks or tells its host, not how it ends, and not what follows. The code is told
apart only where it cannot be generated or cannot be written (`GoesAlike`).
-/

namespace StepGlue

open Json (Object)
open Text

/-! ### What is generated, but for the code -/

/-- A generation without its code. -/
def Generation.outline (generation : Generation) : Generation :=
  { generation with code := "" }

/-- The outcome without the code that was generated. -/
def GenerateOutcome.outline (outcome : GenerateOutcome) : GenerateOutcome :=
  { outcome with generation := outcome.generation.map Generation.outline }

variable [Machine] {free : Prop} {desk desk' : Desk} {code code' text : String}
  {overrides overrides' : Object}

/-- The configuration shows in the code of a generation only. -/
theorem Generation.outline_eq {config config' : Config} {indentSize : Int}
    {generation generation' : Generation} (h : ofText config indentSize text = .ok generation)
    (h' : ofText config' indentSize text = .ok generation') :
    generation'.outline = generation.outline := by
  have hfrom := comesFrom_of_ofLines h
  have hfrom' := comesFrom_of_ofLines h'
  have hsteps : generation'.steps = generation.steps := by rw [hfrom.steps_eq, hfrom'.steps_eq]
  have hmethods : generation'.methods = generation.methods := by
    rw [hfrom.methods_eq, hfrom'.methods_eq, hsteps]
  rw [outline, outline, hsteps, hmethods, hfrom.skippedLines_eq, hfrom'.skippedLines_eq]

/-- Overrides show in the code of a generation only, unless one of two generations fails. -/
theorem Desk.Alike.resultsAlike_generate (halike : desk.Alike desk')
    (hreturns : (∃ generation, desk.session.generate desk.files text overrides' = .ok generation) ↔
      ∃ generation, desk.session.generate desk.files text overrides = .ok generation) :
    ResultsAlike (overrides' ≠ overrides) Generation.outline
      (desk.session.generate desk.files text overrides)
      (desk'.session.generate desk'.files text overrides') := by
  rw [halike.generate_eq]
  by_cases hsame : overrides' = overrides
  · exact .of_eq (by rw [hsame])
  · cases hfirst : desk.session.generate desk.files text overrides with
    | error e =>
      cases hsecond : desk.session.generate desk.files text overrides' with
      | error e' => exact .error (.inl hsame)
      | ok generation' =>
        obtain ⟨generation, hgeneration⟩ := hreturns.mp ⟨generation', hsecond⟩
        cases hfirst.symm.trans hgeneration
    | ok generation =>
      obtain ⟨generation', hsecond⟩ := hreturns.mpr ⟨generation, hfirst⟩
      rw [hsecond]
      refine .ok ?_ (.inl hsame)
      obtain ⟨config, -, hgeneration⟩ := bind_eq_ok_iff.mp hfirst
      obtain ⟨config', -, hgeneration'⟩ := bind_eq_ok_iff.mp hsecond
      exact Generation.outline_eq hgeneration hgeneration'

namespace Command

/-! ### Creating a file -/

/-- The name that a host answers for a file. -/
def askFileName : Command (Option String) := do
  prompt "fileName" (some (← get).session.stepFileName)

def createFileAs (content : String) : Option String → Command FileOutcome
  | none | some "" => return { status := .cancelled, targetPath := none, message := none }
  | some name => do
    if ← writeFile name content then
      let _ ← notify ("Step definition file created: " ++ name) {}
      return { status := .created, targetPath := some name, message := none }
    else
      let message := "Failed to create file: " ++ name
      let _ ← notify message { level := "error" }
      return { status := .failed, targetPath := some name, message := some message }

theorem createFile_some (content : String) :
    createFile (some content) = askFileName >>= createFileAs content :=
  rfl

theorem overlooks_askFileName : Overlooks askFileName :=
  overlooks_get_bind (fun halike => by rw [halike.session_eq]) fun _ => overlooks_prompt _ _

theorem runsAlike_createFileAs (hcode : Exchangeable free code code') (halike : desk.Alike desk')
    (name : Option String) :
    RunsAlike free id ((createFileAs code name).runOn desk)
      ((createFileAs code' name).runOn desk') := by
  rw [createFileAs.eq_def, createFileAs.eq_def]
  split
  · exact ⟨.refl _, halike⟩
  · exact ⟨.refl _, halike⟩
  · refine (runsAlike_writeFile hcode halike _).bind fun hview _ hnext => ?_
    rw [id, id] at hview
    subst hview
    split
    · exact ((overlooks_notify _ _).bind fun _ => overlooks_pure _).runsAlike hnext
    · exact ((overlooks_notify _ _).bind fun _ => overlooks_pure _).runsAlike hnext

theorem runsAlike_createFile (hcode : Exchangeable free code code') (halike : desk.Alike desk') :
    RunsAlike free id ((createFile (some code)).runOn desk)
      ((createFile (some code')).runOn desk') := by
  rw [createFile_some, createFile_some]
  exact overlooks_askFileName.bind_runsAlike halike fun name _ _ hnext =>
    runsAlike_createFileAs hcode hnext name

theorem overlooks_createFile (content : Option String) : Overlooks (createFile content) := by
  have hsome : ∀ content, Overlooks (createFile (some content)) :=
    fun content _ _ halike => runsAlike_createFile ⟨Iff.rfl, .inr rfl⟩ halike
  cases content with
  | none =>
    rw [createFile_none]
    refine Overlooks.bind ?_ hsome
    exact (overlooks_generateCode _ _).bind fun _ => overlooks_pure _
  | some content => exact hsome content

/-! ### Following up -/

theorem runsAlike_follow {choice : Option String}
    (hcode : choice = some "Create File" → Exchangeable free code code')
    (halike : desk.Alike desk') :
    RunsAlike free id ((follow code choice).runOn desk) ((follow code' choice).runOn desk') := by
  rw [follow.eq_def, follow.eq_def]
  split
  · refine (runsAlike_createFile (hcode rfl) halike).bind fun hview _ hnext => ?_
    rw [id, id] at hview
    subst hview
    exact ⟨.refl _, hnext⟩
  · refine ⟨.refl _, halike.onHost (·.showPreview code "java") (·.showPreview code' "java") ?_⟩
    change desk'.host.outline.showPreview "" "java" = desk.host.outline.showPreview "" "java"
    rw [halike.host_eq]
  · exact (overlooks_configure.bind fun _ => overlooks_pure _).runsAlike halike
  · exact ⟨.refl _, halike⟩

/-! ### Generating -/

/-- What is done with a generation that has methods. -/
def present (info : String) (generation : Generation) : Command GenerateOutcome := do
  mapHost fun h => h.setClipboard generation.code
  let followUp ← notify
    ("Generated " ++ toString generation.methods.length ++ " step definition(s)" ++ info ++
      " and copied to clipboard!")
    { key := some "followUp", choices := followUps }
  let file ← follow generation.code followUp
  return {
    status := .generated
    selectionInfo := some info
    generation := some generation
    followUp
    file }

theorem generateFrom_eq (text info : String) (overrides : Object) :
    generateFrom text info overrides = (do
      let generation ← generateCode text overrides
      if generation.methods.isEmpty then
        let _ ← notify
          ("No valid Cucumber steps found" ++ info ++
            ". Make sure your steps start with Given, When, Then, And or But.")
          { level := "warning" }
        return .without .noSteps (some info)
      present info generation) :=
  rfl

/-- The choice is made from the answers that the host was given. -/
theorem runOn_present (info : String) (generation : Generation) (desk : Desk) :
    (present info generation).runOn desk = (do
      let file ← follow generation.code desk.host.followUp?
      return {
        status := .generated
        selectionInfo := some info
        generation := some generation
        followUp := desk.host.followUp?
        file : GenerateOutcome }).runOn
      (desk.onHost fun h => (h.setClipboard generation.code).notify
        ("Generated " ++ toString generation.methods.length ++ " step definition(s)" ++ info ++
          " and copied to clipboard!") { key := some "followUp", choices := followUps }) :=
  rfl

theorem runsAlike_present {generation generation' : Generation}
    (hview : generation'.outline = generation.outline) (hsame : free ∨ generation' = generation)
    (hencodable : desk.host.followUp? = some "Create File" →
      (isEncodable generation'.code ↔ isEncodable generation.code))
    (halike : desk.Alike desk') (info : String) :
    RunsAlike free GenerateOutcome.outline ((present info generation).runOn desk)
      ((present info generation').runOn desk') := by
  have hmethods : generation'.methods = generation.methods := by
    change generation'.outline.methods = generation.outline.methods
    rw [hview]
  have hchoice : desk'.host.followUp? = desk.host.followUp? := by
    obtain ⟨_, _, hhost⟩ := halike.exists_host_eq
    rw [hhost]
    rfl
  have hfollows : ∀ {next next' : Desk}, next.Alike next' →
      RunsAlike free id ((follow generation.code desk.host.followUp?).runOn next)
        ((follow generation'.code desk.host.followUp?).runOn next') :=
    runsAlike_follow fun hcreate =>
      ⟨hencodable hcreate, hsame.imp_right fun heq => by rw [heq]⟩
  rw [runOn_present, runOn_present, hmethods, hchoice]
  refine (hfollows (halike.onHost _ _ ?_)).bind ?_
  · change (desk'.host.outline.setClipboard "").notify _ _ =
      (desk.host.outline.setClipboard "").notify _ _
    rw [halike.host_eq]
  · intro file file' _ _ hfile _ hnext
    rw [id, id] at hfile
    subst hfile
    refine ⟨.ok ?_ (hsame.imp_right fun heq => by rw [heq]), hnext⟩
    simp only [GenerateOutcome.outline, Option.map_some, hview]

/-- Whether codes that are generated with some overrides and with others go the same way. -/
structure GoesAlike (desk : Desk) (text : String) (overrides overrides' : Object) : Prop where
  returns_iff : (∃ generation, desk.session.generate desk.files text overrides' = .ok generation) ↔
    ∃ generation, desk.session.generate desk.files text overrides = .ok generation
  isEncodable_iff : desk.host.followUp? = some "Create File" → ∀ {generation generation'},
    desk.session.generate desk.files text overrides = .ok generation →
    desk.session.generate desk.files text overrides' = .ok generation' →
      (isEncodable generation'.code ↔ isEncodable generation.code)

theorem runsAlike_generateFrom (hgoes : GoesAlike desk text overrides overrides')
    (halike : desk.Alike desk') (info : String) :
    RunsAlike (overrides' ≠ overrides) GenerateOutcome.outline
      ((generateFrom text info overrides).runOn desk)
      ((generateFrom text info overrides').runOn desk') := by
  have hresults := halike.resultsAlike_generate hgoes.returns_iff
  have hencodable := @GoesAlike.isEncodable_iff _ _ _ _ _ hgoes
  rw [← halike.generate_eq text overrides'] at hencodable
  rw [generateFrom_eq, generateFrom_eq, runOn_bind, runOn_bind, runOn_generateCode,
    runOn_generateCode]
  generalize desk.session.generate desk.files text overrides = result at hresults hencodable ⊢
  generalize desk'.session.generate desk'.files text overrides' = result' at hresults hencodable ⊢
  cases hresults with
  | error hsame => exact ⟨.error hsame, halike⟩
  | @ok generation generation' hview hsame =>
    have hmethods : generation'.methods = generation.methods := by
      change generation'.outline.methods = generation.outline.methods
      rw [hview]
    dsimp only
    rw [hmethods]
    split
    · exact ((overlooks_notify _ _).bind fun _ => overlooks_pure _).runsAlike halike
    · exact runsAlike_present hview hsame (fun hcreate => hencodable hcreate rfl rfl) halike info

theorem GoesAlike.refl (desk : Desk) (text : String) (overrides : Object) :
    GoesAlike desk text overrides overrides := by
  refine ⟨Iff.rfl, fun _ {generation generation'} h h' => ?_⟩
  obtain rfl : generation = generation' := Except.ok.inj (h.symm.trans h')
  exact Iff.rfl

theorem GoesAlike.of_isTold {before : Desk} (hgoes : GoesAlike desk text overrides overrides')
    (htold : desk.IsTold before) : GoesAlike before text overrides overrides' := by
  obtain ⟨_, ⟨_, rfl⟩, rfl⟩ := htold
  exact ⟨hgoes.returns_iff, hgoes.isEncodable_iff⟩

omit [Machine] in
theorem overlooks_confirmsNonFeature : Overlooks confirmsNonFeature :=
  (overlooks_notify _ _).bind fun _ => overlooks_pure _

theorem runsAlike_generateChosen {h : Host} {selectionOnly : Bool} (halike : desk.Alike desk')
    (hgoes : ¬(h.chosenText selectionOnly).toList.all isBlank →
      GoesAlike desk (h.chosenText selectionOnly) overrides overrides') :
    RunsAlike (overrides' ≠ overrides) GenerateOutcome.outline
      ((generateChosen (chosenText selectionOnly h.documentText h.selection) overrides).runOn desk)
      ((generateChosen (chosenText selectionOnly h.documentText h.selection) overrides').runOn
        desk') := by
  rw [generateChosen, generateChosen, isEmpty_trim_chosenText]
  by_cases hblank : (h.chosenText selectionOnly).toList.all isBlank
  · rw [if_pos hblank, if_pos hblank]
    exact ((overlooks_notify _ _).bind fun _ => overlooks_pure _).runsAlike halike
  · rw [if_neg hblank, if_neg hblank, runOn_generateFrom_chosenText, runOn_generateFrom_chosenText]
    exact runsAlike_generateFrom (hgoes hblank) halike _

/-- How far a command goes that generates does not depend on its overrides. -/
theorem runsAlike_generate {selectionOnly : Bool} (halike : desk.Alike desk')
    (hgoes : desk.host.decision selectionOnly = .noSteps ∨
        desk.host.decision selectionOnly = .generated →
      GoesAlike desk (desk.host.chosenText selectionOnly) overrides overrides') :
    RunsAlike (overrides' ≠ overrides) GenerateOutcome.outline
      ((generate selectionOnly overrides).runOn desk)
      ((generate selectionOnly overrides').runOn desk') := by
  obtain ⟨clipboard, preview, hhost⟩ := halike.exists_host_eq
  have hdocument : desk'.host.documentText = desk.host.documentText := by rw [hhost]
  have hselection : desk'.host.selection = desk.host.selection := by rw [hhost]; rfl
  have hname : desk'.host.documentName = desk.host.documentName := by rw [hhost]
  have hsample : desk'.host.sample = desk.host.sample := by rw [hhost]; rfl
  have hnone : (desk.host.documentText.isNone && desk.host.selection.isNone) = true ↔
      desk.host.documentText = none ∧ desk.host.selection = none := by simp
  -- a text that is not blank is reached only where the host has decided to go on
  have hreached : ¬(desk.host.documentText = none ∧ desk.host.selection = none) →
      (StepLine.looksLikeFeature desk.host.documentName desk.host.sample ∨
        desk.host.continuesNonFeature) →
      ¬(desk.host.chosenText selectionOnly).toList.all isBlank →
      GoesAlike desk (desk.host.chosenText selectionOnly) overrides overrides' := by
    intro hsome hcontinues hblank
    apply hgoes
    rw [Host.decision, if_neg hsome, if_neg (by simpa [or_iff_not_imp_left] using hcontinues),
      Host.textStatus, if_neg hblank]
    split
    · exact .inr rfl
    · exact .inl rfl
  rw [generate_eq, generate_eq, runOn_bind, runOn_bind, runOn_get, runOn_get]
  dsimp only
  rw [hdocument, hselection, hname, hsample]
  by_cases hsome : desk.host.documentText = none ∧ desk.host.selection = none
  · rw [if_pos (hnone.mpr hsome), if_pos (hnone.mpr hsome)]
    exact ((overlooks_notify _ _).bind fun _ => overlooks_pure _).runsAlike halike
  · rw [if_neg (mt hnone.mp hsome), if_neg (mt hnone.mp hsome)]
    by_cases hlooks : StepLine.looksLikeFeature desk.host.documentName desk.host.sample
    · rw [if_pos hlooks, if_pos hlooks]
      exact runsAlike_generateChosen halike (hreached hsome (.inl hlooks))
    · obtain ⟨before, htold, hconfirms⟩ := exists_runOn_confirmsNonFeature desk
      obtain ⟨before', -, hconfirms'⟩ := exists_runOn_confirmsNonFeature desk'
      have hnext := (overlooks_confirmsNonFeature halike).after
      rw [hconfirms, hconfirms'] at hnext
      have hanswer : desk'.host.continuesNonFeature = desk.host.continuesNonFeature := by
        rw [hhost]
        rfl
      rw [if_neg hlooks, if_neg hlooks, runOn_bind, runOn_bind, hconfirms, hconfirms', hanswer]
      dsimp only
      by_cases hcontinues : desk.host.continuesNonFeature
      · rw [if_pos hcontinues, if_pos hcontinues]
        exact runsAlike_generateChosen hnext fun hblank =>
          (hreached hsome (.inr hcontinues) hblank).of_isTold htold
      · rw [if_neg hcontinues, if_neg hcontinues]
        exact ⟨.refl _, hnext⟩

end Command

end StepGlue
