import StepGlue.Proofs.Generation.Methods
import StepGlue.Proofs.Step.Classified

/-!
# The lines of a generation

A generation is made of the distinct step lines among some lines, and each of them is either a step
or skipped. Which it is does not depend on the other lines, and lines that were classified before
make the same generation.
-/

namespace StepGlue

open Text

/-! ### Classified lines -/

namespace StepLine

/-- Whether `steps` are what the step lines among `lines` are normalized to, each of them once, in
the order in which they come first. -/
structure AreStepsOf (lines : List (Option String)) (steps : List String) : Prop where
  mem_iff : ∀ step, step ∈ steps ↔ ∃ line ∈ lines,
    isStepLine (stripped (line.getD "")) ∧ normalize (stripped (line.getD "")) = step
  ordered : steps.Pairwise fun a b =>
    (normalized (lines.map (·.getD ""))).idxOf a < (normalized (lines.map (·.getD ""))).idxOf b
  isClassified : ∀ step ∈ steps, IsClassified step

theorem mem_normalized_iff {lines : List String} {step : String} : step ∈ normalized lines ↔
    ∃ line ∈ lines, isStepLine (stripped line) ∧ normalize (stripped line) = step := by
  simp only [normalized, List.mem_map, List.mem_filter]
  constructor
  · rintro ⟨_, ⟨⟨line, hline, rfl⟩, hstep⟩, rfl⟩
    exact ⟨line, hline, hstep, rfl⟩
  · rintro ⟨line, hline, hstep, rfl⟩
    exact ⟨_, ⟨⟨line, hline, rfl⟩, hstep⟩, rfl⟩

theorem areStepsOf_classifyPresent (lines : List (Option String)) :
    AreStepsOf lines (classifyPresent lines) where
  mem_iff step := by
    rw [classifyPresent, classify_eq, List.mem_eraseDups, mem_normalized_iff]
    simp only [List.mem_map, exists_exists_and_eq_and]
  ordered := pairwise_idxOf_eraseDups _
  isClassified _ := isClassified_of_mem_classify

theorem map_getD_map_some (lines : List String) :
    (lines.map some).map (fun line => line.getD "") = lines := by
  rw [List.map_map]
  exact List.map_id lines

/-- The step lines among some lines, missing ones included, are the distinct normalized ones by
first occurrence, and lines that were classified beforehand make the same step lines and
generations. -/
theorem classifyPresent_absorbs [Machine] (lines more : List (Option String)) :
    AreStepsOf lines (classifyPresent lines) ∧
      classifyPresent ((classifyPresent lines).map some ++ more) = classifyPresent (lines ++ more) ∧
      classifyPresent (lines ++ (classifyPresent more).map some) = classifyPresent (lines ++ more) ∧
      ∀ config indentSize, Generation.ofLines config indentSize (classifyPresent lines) =
        Generation.ofLines config indentSize (lines.map fun line => line.getD "") := by
  refine ⟨areStepsOf_classifyPresent lines, ?_, ?_, fun config indentSize => ?_⟩
  · simp only [classifyPresent, List.map_append, map_getD_map_some, classify_classify_append]
  · simp only [classifyPresent, List.map_append, map_getD_map_some, classify_append_classify]
  · rw [classifyPresent, Generation.ofLines, classify_classify, ← Generation.ofLines]

theorem isSome_parse?_of_mem_classify {lines : List String} {line : String}
    (h : line ∈ classify lines) : (Step.parse? line).isSome ↔ ¬BodyBreaks line := by
  have hclassified := isClassified_of_mem_classify h
  rw [Step.isSome_parse?_iff, hclassified.stripped_eq]
  exact and_iff_right hclassified.isStepLine

end StepLine

/-! ### Steps and skipped lines -/

namespace Generation

open StepLine (classify BodyBreaks)

section Divided

variable [Machine]

/-- The code of the class with the methods of some steps. -/
def codeOf (config : Config) (indentSize : Int) (steps : List Step) : Except Failure String := do
  let source ← ClassSource.assemble config (Method.renderAll Registry.empty steps)
  Indentation.format indentSize source.text

/-- Whether the step lines among some lines are divided into steps and skipped lines, in their
order, by whether their text breaks. -/
structure Divides (generation : Generation) (lines : List String) : Prop where
  lines_eq : generation.steps.map Step.line = (classify lines).filter fun line => ¬BodyBreaks line
  skippedLines_eq : generation.skippedLines = (classify lines).filter fun line => BodyBreaks line
  parse?_eq : ∀ step ∈ generation.steps, Step.parse? step.line = some step
  map_step_eq : generation.methods.map Method.step = generation.steps

theorem divides_of_ofLines {config : Config} {indentSize : Int} {lines : List String}
    {generation : Generation} (h : ofLines config indentSize lines = .ok generation) :
    generation.Divides lines := by
  have hfrom := comesFrom_of_ofLines h
  have hline_eq : ∀ line ∈ classify lines, ∀ step, Step.parse? line = some step →
      step.line = line := by
    intro line hline step hparse
    rw [(Step.isReadAsClassified line).line_eq step hparse,
      (StepLine.isClassified_of_mem_classify hline).stripped_eq]
  constructor
  · rw [hfrom.steps_eq, StepLine.map_line_filterMap_parse? hline_eq]
    refine List.filter_congr fun line hline => ?_
    rw [Bool.eq_iff_iff, StepLine.isSome_parse?_of_mem_classify hline, decide_eq_true_iff]
  · rw [hfrom.skippedLines_eq]
    refine List.filter_congr fun line hline => ?_
    rw [Bool.eq_iff_iff, decide_eq_true_iff, Option.isNone_iff_eq_none,
      ← Option.not_isSome_iff_eq_none, StepLine.isSome_parse?_of_mem_classify hline, not_not]
  · intro step hstep
    rw [hfrom.steps_eq] at hstep
    obtain ⟨line, hline, hparse⟩ := List.mem_filterMap.mp hstep
    rw [hline_eq line hline step hparse, hparse]
  · rw [hfrom.methods_eq]
    exact Method.map_step_renderAll _ _

theorem exists_ofLines_iff {config : Config} {indentSize : Int} {lines : List String} :
    (∃ generation, ofLines config indentSize lines = .ok generation) ↔
      ∃ code, codeOf config indentSize ((classify lines).filterMap Step.parse?) = .ok code := by
  simp only [ofLines, codeOf, bind_eq_ok_iff]
  constructor
  · rintro ⟨_, source, hsource, code, hcode, -⟩
    exact ⟨code, source, hsource, hcode⟩
  · rintro ⟨code, source, hsource, hcode⟩
    exact ⟨_, source, hsource, code, hcode, rfl⟩

/-- A line reads as a step exactly if it is a step line whose text does not break. There is a
generation of some lines whenever the code for their steps can be made, and then each step line is
one of its steps or is skipped. -/
theorem parse?_agrees_with_classify : (∀ line, Step.IsReadAsClassified line) ∧
    ∀ config indentSize lines,
      ((∃ generation, ofLines config indentSize lines = .ok generation) ↔
        ∃ code, codeOf config indentSize ((classify lines).filterMap Step.parse?) = .ok code) ∧
      ∀ generation, ofLines config indentSize lines = .ok generation → generation.Divides lines :=
  ⟨Step.isReadAsClassified, fun _ _ _ => ⟨exists_ofLines_iff, fun _ => divides_of_ofLines⟩⟩

end Divided

section Broken

attribute [local instance] Machine.plain

/-- A text that breaks, blanks that break before a text, and a line that only looks like a step. -/
theorem parse?_agrees_with_classify_of_broken_text :
    let lines := ["Given a\nb", " And \n c ", "Giventime", "Then 2"]
    ∃ generation, ofLines Config.default 4 lines = .ok generation ∧
      generation.Divides lines ∧ generation.skippedLines = ["Given a\nb"] ∧
      generation.steps.map Step.line = ["Given c", "Then 2"] := by
  intro lines
  obtain ⟨-, hruns⟩ := parse?_agrees_with_classify
  obtain ⟨hexists, hdivides⟩ := hruns Config.default 4 lines
  have hcode : ∃ code, codeOf Config.default 4
      ((StepLine.classify lines).filterMap Step.parse?) = .ok code := by
    have hsteps : (StepLine.classify lines).filterMap Step.parse? =
        (StepLine.classify ["Given c", "Then 2"]).filterMap Step.parse? := by decide +kernel
    rw [hsteps]
    exact exists_ofLines_iff.mp (exists_ofLines_default "Given c\nThen 2"
      ["Given c", "Then 2"] (by decide +kernel) (by decide +kernel))
  obtain ⟨generation, hgeneration⟩ := hexists.mpr hcode
  have hgood := hdivides generation hgeneration
  refine ⟨generation, hgeneration, hgood, ?_, ?_⟩
  · rw [hgood.skippedLines_eq]
    decide +kernel
  · rw [hgood.lines_eq]
    decide +kernel

end Broken

end Generation

end StepGlue
