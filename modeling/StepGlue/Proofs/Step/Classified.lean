import StepGlue.Proofs.Step.Opening

/-!
# Classifying lines again

Lines that were classified are step lines that normalizing leaves alone. So it makes no difference
whether some of the lines were classified beforehand.
-/

namespace StepGlue.StepLine

open Text

variable {line : String} {lines more : List String}

/-- Whether a line has the form of a classified one: trimmed, with the word of a category, blanks
and a text. -/
structure IsClassified (line : String) : Prop where
  trimmed : trim line.toList = line.toList
  opens : ∃ keyword gap body, Keyword.Opens keyword gap body line.toList ∧
    (keyword = .given ∨ keyword = .when ∨ keyword = .then_) ∧ ¬body.all isBlank

theorem not_blank_of_split? {body : List Char} {keyword : Keyword}
    (htrim : trim line.toList = line.toList)
    (h : Keyword.split? line.toList = some (keyword, body)) : ¬body.all isBlank := by
  obtain ⟨c, hlast, -, hc⟩ := Keyword.exists_getLast?_of_split? htrim h
  exact fun hall => hc (List.all_eq_true.mp hall c (List.mem_of_getLast? hlast))

theorem isClassified_normalize (htrim : trim line.toList = line.toList) (hstep : isStepLine line) :
    IsClassified (normalize line) := by
  refine ⟨trim_normalize htrim hstep, ?_⟩
  obtain ⟨⟨keyword, body⟩, hsplit⟩ := Option.isSome_iff_exists.mp hstep
  rcases normalize_cases hsplit with hgiven | ⟨hsame, hand, hbut⟩
  · refine ⟨.given, [' '], body, ⟨?_, List.cons_ne_nil _ _, rfl⟩, .inl rfl,
      not_blank_of_split? htrim hsplit⟩
    rw [hgiven, toList_given_append]
    rfl
  · obtain ⟨gap, hopens, -⟩ := Keyword.split?_eq_some_iff.mp hsplit
    rw [hsame]
    refine ⟨keyword, gap, body, hopens, ?_, not_blank_of_split? htrim hsplit⟩
    cases keyword with
    | given => exact .inl rfl
    | when => exact .inr (.inl rfl)
    | then_ => exact .inr (.inr rfl)
    | and => exact absurd rfl hand
    | but => exact absurd rfl hbut

namespace IsClassified

variable (h : IsClassified line)
include h

theorem stripped_eq : stripped line = line := by
  rw [← String.toList_inj, toList_stripped, h.trimmed]

theorem isStepLine : isStepLine line := by
  obtain ⟨keyword, gap, body, hopens, -⟩ := h.opens
  exact isStepLine_iff.mpr ⟨keyword, gap, body, hopens⟩

theorem normalize_eq : normalize line = line := by
  obtain ⟨keyword, gap, body, hopens, hkeyword, -⟩ := h.opens
  rcases hkeyword with rfl | rfl | rfl <;> rw [normalize, hopens.split?_eq]

end IsClassified

theorem isClassified_of_mem_classify (h : line ∈ classify lines) : IsClassified line := by
  obtain ⟨original, -, hstep, rfl⟩ := exists_eq_normalize_of_mem_classify h
  exact isClassified_normalize (by simp) hstep

/-! ### What some lines are normalized to -/

/-- What the step lines among `lines` are normalized to, one after the other. -/
def normalized (lines : List String) : List String :=
  ((lines.map stripped).filter isStepLine).map normalize

theorem classify_eq (lines : List String) : classify lines = (normalized lines).eraseDups :=
  rfl

theorem normalized_append (lines more : List String) :
    normalized (lines ++ more) = normalized lines ++ normalized more := by
  rw [normalized, List.map_append, List.filter_append, List.map_append, normalized, normalized]

theorem normalized_eq_self (h : ∀ line ∈ lines, IsClassified line) : normalized lines = lines := by
  have hstripped : lines.map stripped = lines := by
    conv_rhs => rw [← List.map_id lines]
    refine List.map_congr_left fun line hline => ?_
    rw [(h line hline).stripped_eq, id]
  have hsteps : lines.filter isStepLine = lines :=
    List.filter_eq_self.mpr fun line hline => (h line hline).isStepLine
  rw [normalized, hstripped, hsteps]
  conv_rhs => rw [← List.map_id lines]
  exact List.map_congr_left fun line hline => (h line hline).normalize_eq

theorem normalized_classify (lines : List String) : normalized (classify lines) = classify lines :=
  normalized_eq_self fun _ => isClassified_of_mem_classify

theorem classify_classify_append (lines more : List String) :
    classify (classify lines ++ more) = classify (lines ++ more) := by
  rw [classify_eq, normalized_append, normalized_classify, classify_eq lines,
    eraseDups_eraseDups_append, ← normalized_append, ← classify_eq]

theorem classify_append_classify (lines more : List String) :
    classify (lines ++ classify more) = classify (lines ++ more) := by
  rw [classify_eq, normalized_append, normalized_classify, classify_eq more,
    eraseDups_append_eraseDups, ← normalized_append, ← classify_eq]

theorem classify_classify (lines : List String) : classify (classify lines) = classify lines := by
  simpa using classify_classify_append lines []

end StepGlue.StepLine
