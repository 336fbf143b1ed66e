import Mathlib.Data.List.Forall2
import StepGlue.Proofs.Step.Basic
import StepGlue.Proofs.Step.Match

/-!
# The pattern of a step is faithful to its text

Whatever stands in the text of a step, its pattern is a well-formed expression with one capture
group for each parameter, and the text is a match in which the groups capture the parameters.
-/

namespace StepGlue.Step

open Regex

/-- The pattern of a step reads as an expression whose groups are the captures of its parameters,
and anchored it matches the whole text with the occurrences of the parameters in the groups. -/
theorem pattern_captures_parameters (digits : Digits) {line : String} {step : Step}
    (h : parse? line = some step) :
    ∃ regex, read? step.pattern.toList = some regex ∧
      (sites regex).length = step.parameters.length ∧
      List.Forall₂ (fun p site => p.kind.CapturedBy site) step.parameters (sites regex) ∧
      read? step.anchoredPattern.toList = some (.start :: regex ++ [.finish]) ∧
      Matches digits [] (.start :: regex ++ [.finish]) step.text.toList
        (step.parameters.map Parameter.occurrence) [] := by
  have hread := isRead_of_parse? h
  have hsites : List.Forall₂ (fun p site => p.kind.CapturedBy site) step.parameters
      (sites (Segment.regex step.segments)) := by
    have hkinds := Segment.capturedBy_sitesAfter none step.segments
    rwa [← hread.map_kind_parameters, List.forall₂_map_left_iff] at hkinds
  have hmatches : Matches digits [] (Segment.anchoredRegex step.segments) step.text.toList
      (step.parameters.map Parameter.occurrence) [] := by
    refine (Segment.matches_anchored_iff hread.one_line).mpr ⟨rfl, ?_⟩
    have hline : '\n' ∉ Segment.textOf step.segments := by
      rw [hread.textOf_segments]
      exact hread.one_line
    have hfits := (Segment.settled_scan step.text.toList).fits digits hline
    rwa [Segment.textOf_scan, ← segments, ← hread.map_occurrence_parameters] at hfits
  exact ⟨_, hread.read?_pattern, hsites.length_eq.symm, hsites, hread.read?_anchoredPattern,
    hmatches⟩

/-- Brackets, a backslash and a quote without a partner among parameters of every kind. -/
theorem pattern_captures_parameters_of_punctuation :
    ∃ step, parse? "Given \"a.*\" (b\\) <c d> 1.5 \"" = some step ∧
      step.parameters.map Parameter.value = ["a.*", "c d", "1", "5"] ∧
      ∃ regex, read? step.pattern.toList = some regex ∧
        (sites regex).length = step.parameters.length ∧
        List.Forall₂ (fun p site => p.kind.CapturedBy site) step.parameters (sites regex) ∧
        read? step.anchoredPattern.toList = some (.start :: regex ++ [.finish]) ∧
        Matches .decimal [] (.start :: regex ++ [.finish]) step.text.toList
          (step.parameters.map Parameter.occurrence) [] := by
  have hvalues : (parse? "Given \"a.*\" (b\\) <c d> 1.5 \"").map
      (fun step => step.parameters.map Parameter.value) = some ["a.*", "c d", "1", "5"] := by
    decide +kernel
  obtain ⟨step, hstep, hparameters⟩ := Option.map_eq_some_iff.mp hvalues
  exact ⟨step, hstep, hparameters, pattern_captures_parameters .decimal hstep⟩

end StepGlue.Step
