import StepGlue.Proofs.Generation.Layout
import StepGlue.Proofs.Method.Identifier

/-!
# The methods of a generation

Steps and methods depend on the lines alone. Lines that are added at the end add methods at the end,
and the names are identifiers as long as no step text spells a reserved word.
-/

namespace StepGlue

open Text

namespace StepLine

/-- Of equal step lines the first one stays, so lines after it change nothing. -/
theorem classify_isPrefix_append (lines more : List String) :
    classify lines <+: classify (lines ++ more) := by
  rw [classify, classify, List.map_append, List.filter_append, List.map_append,
    List.eraseDups_append]
  exact List.prefix_append _ _

end StepLine

namespace Generation

variable {config : Config} {indentSize : Int} {lines : List String} {generation : Generation}

/-! ### Names -/

section Names

variable [Machine]

theorem methodName_of_mem_steps (h : ofLines config indentSize lines = .ok generation)
    {step : Step} (hstep : step ∈ generation.steps) :
    step.methodName = MethodName.ofText step.text := by
  rw [(comesFrom_of_ofLines h).steps_eq] at hstep
  obtain ⟨line, -, hparse⟩ := List.mem_filterMap.mp hstep
  obtain ⟨keyword, text, -, -, rfl⟩ := Step.parse?_eq_some_iff.mp hparse
  rfl

theorem methodNames_eq (h : ofLines config indentSize lines = .ok generation) :
    generation.methodNames =
      (Registry.empty.reserveAll
        (generation.steps.map fun step => MethodName.ofText step.text)).1 := by
  have hbases : generation.steps.map (fun step => MethodName.ofText step.text) =
      generation.steps.map Step.methodName :=
    List.map_congr_left fun step hstep => (methodName_of_mem_steps h hstep).symm
  rw [methodNames, (comesFrom_of_ofLines h).methods_eq, Method.map_name_renderAll, hbases]

/-- Every name is a letter followed by letters and digits, and all names are identifiers if and only
if no step text spells a reserved word. -/
theorem isIdentifier_methodNames_iff (h : ofLines config indentSize lines = .ok generation) :
    (∀ name ∈ generation.methodNames, IsCamelWord name) ∧
      ((∀ name ∈ generation.methodNames, IsIdentifier name) ↔
        ∀ step ∈ generation.steps, MethodName.ofText step.text ∉ reservedWords) := by
  have hcamel : ∀ name ∈ generation.methodNames, IsCamelWord name := by
    rw [methodNames_eq h]
    intro name hname
    refine Registry.isCamelWord_of_mem_reserveAll (fun base hbase => ?_) hname
    obtain ⟨step, -, rfl⟩ := List.mem_map.mp hbase
    exact MethodName.isCamelWord_ofText step.text
  have hreserved : ∀ word ∈ reservedWords, word ∈ generation.methodNames ↔
      ∃ step ∈ generation.steps, MethodName.ofText step.text = word := by
    intro word hword
    rw [methodNames_eq h, Registry.mem_reserveAll_empty_iff_of_reserved hword, List.mem_map]
  refine ⟨hcamel, ⟨fun hall step hstep hword => ?_, fun hnone name hname => ?_⟩⟩
  · have hname := (hreserved _ hword).mpr ⟨step, hstep, rfl⟩
    exact (hall _ hname).not_reserved hword
  · refine ⟨hcamel name hname, fun hword => ?_⟩
    obtain ⟨step, hstep, rfl⟩ := (hreserved name hword).mp hname
    exact hnone step hstep hword

end Names

section Reserved

attribute [local instance] Machine.plain

theorem exists_ofLines_default (text : String) (lines : List String)
    (hlines : splitLines text = lines) (hsteps : ∀ step ∈ stepsOf text, step.OpensNothing) :
    ∃ generation, ofLines Config.default 4 lines = .ok generation := by
  obtain ⟨names, -⟩ := exists_sourceOf namesOnOneLine_default text
  have hcounts : Indentation.Counts 4 3 := by decide
  obtain ⟨generation, hgeneration⟩ := (exists_ofText_iff_counts namesOnOneLine_default hsteps
    names).mpr ⟨hcounts, within_none _⟩
  exact ⟨generation, hlines ▸ hgeneration⟩

/-- Reserved words that stand next to other words or digits spoil no name. -/
theorem isIdentifier_methodNames_of_reserved_word_in_text :
    ∃ generation,
      ofLines Config.default 4 ["Given new <class>", "When 2 return!", "Then for1"] =
        .ok generation ∧
      ∀ name ∈ generation.methodNames, IsIdentifier name := by
  obtain ⟨generation, hgeneration⟩ := exists_ofLines_default
    "Given new <class>\nWhen 2 return!\nThen for1"
    ["Given new <class>", "When 2 return!", "Then for1"] (by decide +kernel) (by decide +kernel)
  refine ⟨generation, hgeneration, (isIdentifier_methodNames_iff hgeneration).2.mpr ?_⟩
  rw [(comesFrom_of_ofLines hgeneration).steps_eq]
  decide +kernel

/-- A step text that spells a reserved word gives a method that word for a name. -/
theorem not_isIdentifier_of_reserved_word :
    ∃ generation, ofLines Config.default 4 ["Given new"] = .ok generation ∧
      "new" ∈ generation.methodNames ∧ ¬IsIdentifier "new" := by
  obtain ⟨generation, hgeneration⟩ := exists_ofLines_default "Given new" ["Given new"]
    (by decide +kernel) (by decide +kernel)
  refine ⟨generation, hgeneration, ?_, fun h => h.not_reserved (by decide +kernel)⟩
  rw [methodNames_eq hgeneration, (comesFrom_of_ofLines hgeneration).steps_eq]
  decide +kernel

end Reserved

/-! ### More lines -/

/-- Lines that are added at the end change nothing of what was there. -/
theorem isPrefix_of_more_lines [Machine] {more : List String} {before after : Generation}
    (hbefore : ofLines config indentSize lines = .ok before)
    (hafter : ofLines config indentSize (lines ++ more) = .ok after) :
    before.methods <+: after.methods ∧ before.steps <+: after.steps ∧
      before.skippedLines <+: after.skippedLines := by
  have hold := comesFrom_of_ofLines hbefore
  have hnew := comesFrom_of_ofLines hafter
  have hlines := StepLine.classify_isPrefix_append lines more
  have hsteps : before.steps <+: after.steps := by
    rw [hold.steps_eq, hnew.steps_eq]
    exact hlines.filterMap _
  have hmethods : before.methods <+: after.methods := by
    obtain ⟨others, hothers⟩ := hsteps
    rw [hold.methods_eq, hnew.methods_eq, ← hothers, Method.renderAll_append]
    exact List.prefix_append _ _
  have hskipped : before.skippedLines <+: after.skippedLines := by
    rw [hold.skippedLines_eq, hnew.skippedLines_eq]
    exact hlines.filter _
  exact ⟨hmethods, hsteps, hskipped⟩

section Clashes

attribute [local instance] Machine.plain

/-- A step that comes again, one that spells a name given out before, and one that spells a name
with a number. -/
theorem isPrefix_of_more_lines_of_clashing_names :
    ∃ before after,
      ofLines Config.default 4 ["Given a", "Given a!"] = .ok before ∧
      ofLines Config.default 4
        (["Given a", "Given a!"] ++ ["And a", "When a", "Then a1"]) = .ok after ∧
      before.methods <+: after.methods ∧ before.steps <+: after.steps ∧
        before.skippedLines <+: after.skippedLines := by
  obtain ⟨before, hbefore⟩ := exists_ofLines_default "Given a\nGiven a!"
    ["Given a", "Given a!"] (by decide +kernel) (by decide +kernel)
  obtain ⟨after, hafter⟩ := exists_ofLines_default
    "Given a\nGiven a!\nAnd a\nWhen a\nThen a1"
    (["Given a", "Given a!"] ++ ["And a", "When a", "Then a1"]) (by decide +kernel)
    (by decide +kernel)
  exact ⟨before, after, hbefore, hafter, isPrefix_of_more_lines hbefore hafter⟩

end Clashes

end Generation

end StepGlue
