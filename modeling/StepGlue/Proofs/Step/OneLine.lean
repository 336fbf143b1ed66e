import StepGlue.Proofs.Method.Name
import StepGlue.Proofs.Step.Basic
import StepGlue.Proofs.Step.SlotName

/-!
# What is made of a step stands on one line

The text of a step has no line feed, and neither has anything that is spelled from it: its pattern
and annotation, the names of its parameters and of its method.
-/

namespace StepGlue

open Text

theorem oneLine_of_isAlphanum {s : String} (h : ∀ c ∈ s.toList, c.isAlphanum) : OneLine s := by
  intro hmem
  exact absurd (h _ hmem) (by decide)

namespace Segment

open Parameter

variable {segments : List Segment}

theorem source_isInfix {segment : Segment} (h : segment ∈ segments) :
    segment.source <:+: textOf segments := by
  obtain ⟨earlier, later, rfl⟩ := List.append_of_mem h
  rw [textOf_append, textOf_cons]
  exact ⟨textOf earlier, textOf later, by simp⟩

theorem newline_not_mem_ofSegment {segment : Segment} (h : '\n' ∉ segment.source) :
    '\n' ∉ Pattern.ofSegment segment := by
  cases segment with
  | literal text =>
    refine newline_not_mem_flatMap (fun c hc => ?_) h
    split
    · simp [Ne.symm hc]
    · simp [Ne.symm hc]
  | slot kind value =>
    have hcapture : OneLine kind.capture := by cases kind <;> exact oneLine_literal rfl
    exact hcapture

theorem oneLine_ofSegments (h : '\n' ∉ textOf segments) :
    OneLine (Pattern.ofSegments segments) := by
  rw [Pattern.ofSegments, oneLine_ofList]
  intro hmem
  obtain ⟨segment, hsegment, hchar⟩ := List.mem_flatMap.mp hmem
  refine newline_not_mem_ofSegment (fun hsource => h ?_) hchar
  exact (source_isInfix hsegment).subset hsource

theorem oneLine_slotName (kind : Kind) (ordinal : Nat) (value : List Char) :
    OneLine (slotName kind ordinal value) :=
  fun hmem => not_isBlank_of_mem_slotName hmem (by decide)

end Segment

namespace Step.IsRead

variable {step : Step}

theorem oneLine_annotation (h : step.IsRead) : OneLine step.annotation := by
  have hpattern : OneLine step.pattern := by
    rw [h.pattern_eq]
    apply Segment.oneLine_ofSegments
    rw [h.textOf_segments]
    exact h.one_line
  have hword : OneLine step.category.word := by
    cases step.category <;> exact oneLine_literal rfl
  simp only [Pattern.anchored, anchoredPattern, annotation, oneLine_append]
  exact ⟨⟨⟨⟨oneLine_literal rfl, hword⟩, oneLine_literal rfl⟩,
    ⟨oneLine_literal rfl, hpattern⟩, oneLine_literal rfl⟩, oneLine_literal rfl⟩

theorem oneLine_declarations (h : step.IsRead) : ∀ d ∈ step.declarations, OneLine d := by
  intro d hd
  obtain ⟨p, hp, rfl⟩ := List.mem_map.mp hd
  rw [h.parameters_eq] at hp
  obtain ⟨ordinal, value, heq⟩ := Segment.exists_slotName_eq_of_mem_parametersAfter hp
  have hname : OneLine p.name := heq ▸ Segment.oneLine_slotName p.kind ordinal value
  rw [Parameter.declaration, oneLine_append, oneLine_append]
  exact ⟨⟨by cases p.kind <;> exact oneLine_literal rfl, oneLine_literal rfl⟩, hname⟩

end Step.IsRead

end StepGlue
