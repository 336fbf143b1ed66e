import StepGlue.Proofs.Step.Pattern
import StepGlue.Step.Basic

/-!
# Steps that were read from a line

Everything that is said about the pattern of a step later is said about the segments of its text,
and about a text that stands on one line.
-/

namespace StepGlue.Step

open Regex Text

def segments (step : Step) : List Segment :=
  Segment.scan step.text.toList

/-- A step whose parameters and pattern are those of its text. -/
structure IsRead (step : Step) : Prop where
  parameters_eq : step.parameters = Segment.parameters step.segments
  pattern_eq : step.pattern = Pattern.ofSegments step.segments
  one_line : '\n' ∉ step.text.toList

theorem isRead_ofText (line : String) (category : Category) {text : List Char}
    (h : '\n' ∉ text) : (ofText line category text).IsRead where
  parameters_eq := by simp [ofText, segments]
  pattern_eq := by simp [ofText, segments]
  one_line := by simpa [ofText] using h

/-- A line is a step if it starts with a keyword and its text has no line feed. -/
theorem parse?_eq_some_iff {line : String} {step : Step} :
    parse? line = some step ↔
      ∃ keyword text, Keyword.split? (trim line.toList) = some (keyword, text) ∧ '\n' ∉ text ∧
        step = ofText (String.ofList (trim line.toList)) keyword.category text := by
  rw [parse?]
  constructor
  · intro h
    split at h
    · rename_i keyword text hsplit
      split at h
      · exact absurd h (by simp)
      · rename_i hline
        refine ⟨keyword, text, hsplit, by simpa using hline, ?_⟩
        exact (Option.some.inj h).symm
    · exact absurd h (by simp)
  · rintro ⟨keyword, text, hsplit, hline, rfl⟩
    simp [hsplit, hline]

theorem isRead_of_parse? {line : String} {step : Step} (h : parse? line = some step) :
    step.IsRead := by
  obtain ⟨keyword, text, -, hline, rfl⟩ := parse?_eq_some_iff.mp h
  exact isRead_ofText _ _ hline

namespace IsRead

variable {step : Step}

theorem textOf_segments (_ : step.IsRead) : Segment.textOf step.segments = step.text.toList :=
  Segment.textOf_scan _

theorem map_occurrence_parameters (h : step.IsRead) :
    step.parameters.map Parameter.occurrence = Segment.occurrences step.segments := by
  rw [h.parameters_eq]
  exact Segment.map_occurrence_parametersAfter [] _

theorem map_kind_parameters (h : step.IsRead) :
    step.parameters.map Parameter.kind = step.segments.filterMap Segment.kind? := by
  rw [h.parameters_eq]
  exact Segment.map_kind_parametersAfter [] _

theorem read?_pattern (h : step.IsRead) :
    read? step.pattern.toList = some (Segment.regex step.segments) := by
  rw [h.pattern_eq]
  exact Segment.read?_ofSegments _

theorem read?_anchoredPattern (h : step.IsRead) :
    read? step.anchoredPattern.toList = some (Segment.anchoredRegex step.segments) := by
  rw [anchoredPattern, h.pattern_eq]
  exact Segment.read?_anchored _

end IsRead

end StepGlue.Step
