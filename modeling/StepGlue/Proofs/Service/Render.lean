import StepGlue.Proofs.Machine
import StepGlue.Proofs.Step.Classified
import StepGlue.Service.App

/-!
# Rendering the steps of a request

A request to render gives either a text or a list of texts, which the service joins with line feeds.
A break can come to lie across two of the texts then, so the lines of the joined text are not those
of the texts. The step lines are, and the reply is made of them.
-/

namespace StepGlue

open Text

namespace StepLine

variable {texts : List String}

theorem normalized_splitLines (text : String) : normalized (splitLines text) =
    (((solidLines text.toList).map String.ofList).filter isStepLine).map normalize :=
  congrArg (List.map normalize) (stepLines_splitLines text)

theorem normalized_flatMap (linesOf : String → List String) (texts : List String) :
    normalized (texts.flatMap linesOf) = texts.flatMap fun text => normalized (linesOf text) := by
  simp only [normalized, List.map_flatMap, List.filter_flatMap]

theorem normalized_splitLines_intercalate (texts : List String) :
    normalized (splitLines ("\n".intercalate texts)) = normalized (texts.flatMap splitLines) := by
  simp only [normalized_flatMap, normalized_splitLines, solidLines_intercalate, List.map_flatMap,
    List.filter_flatMap]

theorem classify_splitLines_intercalate (texts : List String) :
    classify (splitLines ("\n".intercalate texts)) = classify (texts.flatMap splitLines) := by
  rw [classify_eq, normalized_splitLines_intercalate, ← classify_eq]

/-! ### Texts without breaks -/

theorem splitLines_of_no_break {text : String} (hfeed : '\n' ∉ text.toList)
    (hreturn : '\r' ∉ text.toList) : splitLines text = [stripped text] := by
  rw [splitLines, unifyBreaks_eq_self hreturn, splitOn_eq, List.splitOn_eq_singleton hfeed,
    List.map_singleton]
  rfl

theorem normalized_map_stripped (lines : List String) :
    normalized (lines.map stripped) = normalized lines := by
  have hstripped : (lines.map stripped).map stripped = lines.map stripped := by
    rw [List.map_map]
    refine List.map_congr_left fun line _ => ?_
    rw [Function.comp, stripped, trim_stripped, String.ofList_toList]
  rw [normalized, hstripped, normalized]

theorem classify_flatMap_splitLines (h : ∀ text ∈ texts, '\n' ∉ text.toList ∧ '\r' ∉ text.toList) :
    classify (texts.flatMap splitLines) = classify texts := by
  have hlines : texts.flatMap splitLines = texts.map stripped := by
    rw [← List.flatMap_pure_eq_map]
    refine List.flatMap_congr fun text htext => ?_
    obtain ⟨hfeed, hreturn⟩ := h text htext
    rw [splitLines_of_no_break hfeed hreturn]
    rfl
  rw [classify_eq, hlines, normalized_map_stripped, ← classify_eq]

end StepLine

open StepLine (classify)

variable [Machine]

/-- Of the lines, a generation depends on nothing but the step lines. -/
theorem Generation.ofLines_congr {lines others : List String} (h : classify lines = classify others)
    (config : Config) (indentSize : Int) :
    ofLines config indentSize lines = ofLines config indentSize others := by
  rw [ofLines, h, ← ofLines]

theorem Generation.ofText_intercalate (config : Config) (indentSize : Int) (texts : List String) :
    ofText config indentSize ("\n".intercalate texts) =
      ofLines config indentSize (texts.flatMap splitLines) :=
  ofLines_congr (StepLine.classify_splitLines_intercalate texts) config indentSize

/-! ### Requests -/

/-- The lines of the texts that a request to render gives, one text after the other. -/
def RenderPayload.lines (payload : RenderPayload) : List String :=
  match payload.steps with
  | some texts => texts.flatMap splitLines
  | none => splitLines (payload.text.getD "")

/-- The text that is made of a request to render. -/
def RenderPayload.joined (payload : RenderPayload) : String :=
  match payload.steps with
  | some texts => "\n".intercalate texts
  | none => payload.text.getD ""

theorem RenderPayload.ofText_joined (payload : RenderPayload) (config : Config) (indentSize : Int) :
    Generation.ofText config indentSize payload.joined =
      Generation.ofLines config indentSize payload.lines := by
  rw [joined, lines]
  cases payload.steps with
  | some texts => exact Generation.ofText_intercalate config indentSize texts
  | none => rfl

namespace App

/-- The reply that shows what is generated of some lines. -/
def replyToLines (app : App) (session : Session) (overrides : Json.Object) (lines : List String) :
    Reply :=
  match (session.currentConfig app.files overrides).bind fun config =>
      Generation.ofLines config session.indentSize lines with
  | .ok generation => .json 200 (.obj (Reply.generation generation))
  | .error _ => .internalError

theorem answer_render (app : App) (request : Request) : app.answer request .render =
    app.withBody request Payload.render fun payload session =>
      (app, app.replyToLines session payload.overrides payload.lines) := by
  have hgenerate : ∀ (payload : RenderPayload) (session : Session),
      session.generate app.files payload.joined payload.overrides =
        (session.currentConfig app.files payload.overrides).bind fun config =>
          Generation.ofLines config session.indentSize payload.lines := by
    intro payload session
    simp only [← payload.ofText_joined]
    rfl
  rw [answer]
  congr 1
  funext payload session
  rw [replyToLines, ← hgenerate]
  obtain ⟨steps, text, overrides⟩ := payload
  cases steps with
  | some texts =>
    dsimp only [RenderPayload.joined]
    cases session.generate app.files ("\n".intercalate texts) overrides <;> rfl
  | none =>
    dsimp only [RenderPayload.joined]
    cases session.generate app.files (text.getD "") overrides <;> rfl

/-- The texts of a request generate what their lines generate, though joining them may break the
lines in other places. Texts without breaks are lines themselves. -/
theorem renders_joined_steps (texts : List String) :
    classify (splitLines ("\n".intercalate texts)) = classify (texts.flatMap splitLines) ∧
      (∀ config indentSize, Generation.ofText config indentSize ("\n".intercalate texts) =
        Generation.ofLines config indentSize (texts.flatMap splitLines)) ∧
      ((∀ text ∈ texts, '\n' ∉ text.toList ∧ '\r' ∉ text.toList) →
        classify (splitLines ("\n".intercalate texts)) = classify texts) ∧
      ∀ (app : App) (request : Request), app.answer request .render =
        app.withBody request Payload.render fun payload session =>
          (app, app.replyToLines session payload.overrides payload.lines) := by
  have hclassify := StepLine.classify_splitLines_intercalate texts
  refine ⟨hclassify, fun config indentSize => ?_, fun hbreaks => ?_, answer_render⟩
  · exact Generation.ofText_intercalate config indentSize texts
  · rw [hclassify, StepLine.classify_flatMap_splitLines hbreaks]

omit [Machine]

/-- Texts that are lines themselves, with a step that comes twice. -/
theorem renders_joined_steps_of_plain_texts :
    let texts := ["Given a", " And a ", "Then b"]
    (∀ text ∈ texts, '\n' ∉ text.toList ∧ '\r' ∉ text.toList) ∧
      classify (splitLines ("\n".intercalate texts)) = ["Given a", "Then b"] := by
  intro texts
  have hbreaks : ∀ text ∈ texts, '\n' ∉ text.toList ∧ '\r' ∉ text.toList := by
    simp [texts]
  obtain ⟨-, -, hplain, -⟩ := @renders_joined_steps Machine.plain texts
  refine ⟨hbreaks, (hplain hbreaks).trans ?_⟩
  decide +kernel

end App

end StepGlue
