import StepGlue.Generation
import StepGlue.Proofs.ClassSource
import StepGlue.Proofs.Step.Line
import StepGlue.Service.Reply

/-!
# One method for each step line

All stages together: every line that is classified as a step line is read, rendered under a name of
its own, and annotated once in the formatted class, whatever its text and the configuration.
-/

namespace StepGlue

open Text

namespace Method

theorem areRendered_renderAll {steps : List Step} (registry : Registry)
    (h : ∀ step ∈ steps, ∃ line, Step.parse? line = some step ∧ OneLine line) :
    ClassSource.AreRendered (renderAll registry steps) := by
  intro method hmethod
  have hstep : method.step ∈ steps := by
    rw [← map_step_renderAll registry steps]
    exact List.mem_map.mpr ⟨method, hmethod, rfl⟩
  obtain ⟨line, hparse, hline⟩ := h _ hstep
  obtain ⟨keyword, text, -, -, hofText⟩ := Step.parse?_eq_some_iff.mp hparse
  have hname : OneLine method.step.methodName := by
    rw [hofText]
    exact oneLine_of_isAlphanum fun c => MethodName.isAlphanum_of_mem_ofText
  have htrimmed : OneLine method.step.line := by
    rw [hofText]
    exact oneLine_ofList.mpr fun hmem => hline (mem_of_mem_trim hmem)
  exact ⟨text_eq_of_mem_renderAll hmethod, Step.isRead_of_parse? hparse, htrimmed,
    oneLine_name_of_mem_renderAll hmethod hname⟩

end Method

namespace StepLine

variable {lines : List String}

theorem map_line_filterMap_parse?_eq
    (h : ∀ line ∈ lines, ∃ step, Step.parse? line = some step ∧ step.line = line) :
    (lines.filterMap Step.parse?).map Step.line = lines := by
  rw [map_line_filterMap_parse?, List.filter_eq_self]
  · intro line hline
    obtain ⟨step, hparse, -⟩ := h line hline
    rw [hparse]
    rfl
  · intro line hline step hparse
    obtain ⟨step', hparse', hline'⟩ := h line hline
    exact Option.some.inj (hparse'.symm.trans hparse) ▸ hline'

theorem filter_parse?_eq_nil (hlines : ∀ line ∈ lines, OneLine line) :
    (classify lines).filter (fun line => (Step.parse? line).isNone) = [] := by
  rw [List.filter_eq_nil_iff]
  intro line hline
  obtain ⟨step, hstep, -⟩ := exists_parse?_of_mem_classify hlines hline
  simp [hstep]

end StepLine

namespace Generation

def stepsOf (text : String) : List Step :=
  (StepLine.classify (splitLines text)).filterMap Step.parse?

/-- One method for each distinct step line of a text, under its own name and with one annotation,
which the service shows as it stands in the code. -/
structure IsOfStepLines (generation : Generation) (text : String) : Prop where
  distinct : (StepLine.classify (splitLines text)).Nodup
  skippedLines : generation.skippedLines = []
  lines : generation.steps.map Step.line = StepLine.classify (splitLines text)
  steps : generation.methods.map Method.step = generation.steps
  names : generation.methodNames.Nodup
  annotations : annotationsAmong (splitOn '\n' generation.code.toList) =
    generation.methods.map fun m =>
      ("@" ++ m.step.category.word ++ "(\"^" ++ m.step.pattern ++ "$\")").toList
  shown : ∀ m ∈ generation.methods, ∃ members, Reply.step m = .obj members ∧
    Json.Object.get? members "annotation" =
      some (.str ("@" ++ m.step.category.word ++ "(\"^" ++ m.step.pattern ++ "$\")"))

theorem annotation_eq (step : Step) :
    step.annotation = "@" ++ step.category.word ++ "(\"^" ++ step.pattern ++ "$\")" := by
  rw [← String.toList_inj]
  simp [Step.annotation, Step.anchoredPattern, Pattern.anchored]

theorem areRendered_stepsOf (text : String) :
    ClassSource.AreRendered (Method.renderAll Registry.empty (stepsOf text)) := by
  apply Method.areRendered_renderAll
  intro step hstep
  obtain ⟨line, hline, hparse⟩ := List.mem_filterMap.mp hstep
  have hlines : ∀ line ∈ splitLines text, OneLine line := fun _ => oneLine_of_mem_splitLines
  exact ⟨line, hparse, (StepLine.isStep_of_mem_classify hlines hline).2.1⟩

variable [Machine]

/-- The class for the step lines of a text, before it is indented. -/
def sourceOf (config : Config) (text : String) : Except Failure ClassSource :=
  ClassSource.assemble config (Method.renderAll Registry.empty (stepsOf text))

theorem ofText_eq {config : Config} {indentSize : Int} {text : String} {source : ClassSource}
    (h : sourceOf config text = .ok source) :
    ofText config indentSize text = (Indentation.format indentSize source.text).map fun code =>
      { code
        steps := stepsOf text
        methods := Method.renderAll Registry.empty (stepsOf text)
        skippedLines := (StepLine.classify (splitLines text)).filter
          fun line => (Step.parse? line).isNone } := by
  rw [sourceOf, stepsOf] at h
  rw [ofText, ofLines, h]
  cases hcode : Indentation.format indentSize source.text with
  | error failure => simp only [bind, Except.bind, hcode, Except.map]
  | ok code => simp only [bind, Except.bind, hcode, Except.map, pure, Except.pure, stepsOf]

/-- How the parts of a generation come from some lines. -/
structure ComesFrom (generation : Generation) (config : Config) (indentSize : Int)
    (lines : List String) : Prop where
  steps_eq : generation.steps = (StepLine.classify lines).filterMap Step.parse?
  methods_eq : generation.methods = Method.renderAll Registry.empty generation.steps
  skippedLines_eq : generation.skippedLines =
    (StepLine.classify lines).filter fun line => (Step.parse? line).isNone
  exists_source : ∃ source, ClassSource.assemble config generation.methods = .ok source ∧
    Indentation.format indentSize source.text = .ok generation.code

theorem comesFrom_of_ofLines {config : Config} {indentSize : Int} {lines : List String}
    {generation : Generation} (h : ofLines config indentSize lines = .ok generation) :
    generation.ComesFrom config indentSize lines := by
  rw [ofLines] at h
  obtain ⟨source, hsource, h⟩ := bind_eq_ok_iff.mp h
  obtain ⟨code, hcode, h⟩ := bind_eq_ok_iff.mp h
  obtain rfl := Except.ok.inj h
  exact ⟨rfl, rfl, rfl, source, hsource, hcode⟩

/-- There are no methods for a text without step lines, and only for such a text. -/
theorem methods_eq_nil_iff {config : Config} {indentSize : Int} {text : String}
    {generation : Generation} (h : ofText config indentSize text = .ok generation) :
    generation.methods = [] ↔ (splitLines text).any StepLine.isStepLine = false := by
  have hparse : ∀ line ∈ StepLine.classify (splitLines text),
      ∃ step, Step.parse? line = some step ∧ step.line = line :=
    fun _ => StepLine.exists_parse?_of_mem_classify fun _ => oneLine_of_mem_splitLines
  have hfrom := comesFrom_of_ofLines h
  have hsteps : generation.methods.map Method.step = generation.steps := by
    rw [hfrom.methods_eq]
    exact Method.map_step_renderAll _ _
  rw [← StepLine.classify_eq_nil_iff fun _ => trim_of_mem_splitLines,
    ← StepLine.map_line_filterMap_parse?_eq hparse, ← hfrom.steps_eq, ← hsteps, List.map_eq_nil_iff,
    List.map_eq_nil_iff]

/-- Blanks at the ends of a text make no difference. -/
theorem ofText_trim (config : Config) (indentSize : Int) (text : String) :
    ofText config indentSize (String.ofList (trim text.toList)) =
      ofText config indentSize text := by
  rw [ofText, ofLines, StepLine.classify_splitLines_trim, ofText, ofLines]

theorem exists_sourceOf {config : Config} (hconfig : config.NamesOnOneLine) (text : String) :
    ∃ names source, ClassSource.Names.ofConfig config = .ok names ∧
      sourceOf config text = .ok source ∧
      splitOn '\n' source.text.toList = (ClassSource.sourceLines names
        (Method.renderAll Registry.empty (stepsOf text))).map String.toList ∧
      annotationsAmong (splitOn '\n' source.text.toList) =
        (Method.renderAll Registry.empty (stepsOf text)).map fun m => m.step.annotation.toList :=
  ClassSource.exists_assemble hconfig (areRendered_stepsOf text)

theorem exists_ofText_iff {config : Config} {indentSize : Int} {text : String}
    {source : ClassSource} (h : sourceOf config text = .ok source) :
    (∃ generation, ofText config indentSize text = .ok generation) ↔
      Indentation.Fits indentSize (Indentation.levelsOf source.text) := by
  simp only [← Indentation.exists_format_iff, ofText_eq h, map_eq_ok_iff]
  constructor
  · rintro ⟨_, code, hcode, -⟩
    exact ⟨code, hcode⟩
  · rintro ⟨code, hcode⟩
    exact ⟨_, code, hcode, rfl⟩

/-- A size that cannot be counted for one level gives no class. -/
theorem not_exists_ofText {config : Config} (hconfig : config.NamesOnOneLine) {indentSize : Int}
    (hsize : ¬Indentation.Counts indentSize 1) (text : String) :
    ¬∃ generation, ofText config indentSize text = .ok generation := by
  obtain ⟨names, source, -, hsource, hlines, -⟩ := exists_sourceOf hconfig text
  rw [exists_ofText_iff hsource]
  intro hfits
  obtain ⟨level, hlevel, hone⟩ := ClassSource.exists_one_le_of_sourceLines hlines
  exact hsize ((hfits.counts level hlevel).of_le hone)

/-- Every text and configuration gives a generation of its step lines, as long as the spaces that
the class calls for can be made. -/
theorem one_method_per_step_line {config : Config} (hconfig : config.NamesOnOneLine)
    (indentSize : Int) (text : String) :
    ∃ source, sourceOf config text = .ok source ∧
      ((∃ generation, ofText config indentSize text = .ok generation) ↔
        Indentation.Fits indentSize (Indentation.levelsOf source.text)) ∧
      ∀ generation, ofText config indentSize text = .ok generation →
        generation.IsOfStepLines text := by
  have hlines : ∀ line ∈ splitLines text, OneLine line := fun _ => oneLine_of_mem_splitLines
  have hparse : ∀ line ∈ StepLine.classify (splitLines text),
      ∃ step, Step.parse? line = some step ∧ step.line = line :=
    fun _ => StepLine.exists_parse?_of_mem_classify hlines
  obtain ⟨-, source, -, hsource, -, hannotations⟩ := exists_sourceOf hconfig text
  refine ⟨source, hsource, exists_ofText_iff hsource, fun generation hgeneration => ?_⟩
  rw [ofText_eq hsource, map_eq_ok_iff] at hgeneration
  obtain ⟨code, hcode, rfl⟩ := hgeneration
  constructor
  · exact StepLine.nodup_classify _
  · exact StepLine.filter_parse?_eq_nil hlines
  · exact StepLine.map_line_filterMap_parse?_eq hparse
  · exact Method.map_step_renderAll _ _
  · exact Method.nodup_names_renderAll _ _
  · simpa only [annotation_eq] using (annotationsAmong_format hcode).trans hannotations
  · intro m hm
    exact ⟨_, rfl, by rw [← annotation_eq]; rfl⟩

theorem namesOnOneLine_default : Config.default.NamesOnOneLine where
  packageName := ClassSource.showsOnOneLine_str (oneLine_literal rfl)
  className := ClassSource.showsOnOneLine_str (oneLine_literal rfl)
  baseTestClass := nofun
  imports := nofun

end Generation

end StepGlue

/-! ### A step that is repeated, and sizes that cannot be counted -/

namespace StepGlue.Generation

open Text

attribute [local instance] Machine.plain

/-- Two lines that spell one step, and a second step, at the usual indentation. -/
theorem one_method_per_step_line_of_repeated_step :
    ∃ generation, ofText Config.default 4 "Given a <b>\r\n  And a <b>\nThen 2 @c" = .ok generation ∧
      generation.IsOfStepLines "Given a <b>\r\n  And a <b>\nThen 2 @c" := by
  obtain ⟨source, hsource, hiff, hgood⟩ :=
    one_method_per_step_line namesOnOneLine_default 4 "Given a <b>\r\n  And a <b>\nThen 2 @c"
  have hlength : (splitOn '\n' source.text.toList).length ≤ 1000 := by
    obtain ⟨names, source', hnames, hsource', hlines, -⟩ :=
      exists_sourceOf namesOnOneLine_default "Given a <b>\r\n  And a <b>\nThen 2 @c"
    obtain rfl : source' = source := Except.ok.inj (hsource'.symm.trans hsource)
    obtain rfl : _ = names := Except.ok.inj hnames
    rw [hlines, List.length_map]
    decide +kernel
  have hcounts : ∀ level ∈ Indentation.levelsOf source.text, Indentation.Counts 4 level := by
    intro level hlevel
    have hle := Indentation.le_length_of_mem_levelsOf hlevel
    rw [Indentation.Counts]
    omega
  obtain ⟨generation, hgeneration⟩ := hiff.mpr ⟨hcounts, within_none _⟩
  exact ⟨generation, hgeneration, hgood generation hgeneration⟩

/-- Numbers of spaces that are no machine integers fail, those that stand for no spaces too. -/
theorem not_exists_ofText_of_huge_size :
    Config.default.NamesOnOneLine ∧
      (¬∃ generation, ofText Config.default 10000000000000000000 "Given a" = .ok generation) ∧
      ¬∃ generation, ofText Config.default (-10000000000000000000) "Given a" = .ok generation :=
  ⟨namesOnOneLine_default, not_exists_ofText namesOnOneLine_default (by decide) _,
    not_exists_ofText namesOnOneLine_default (by decide) _⟩

end StepGlue.Generation
