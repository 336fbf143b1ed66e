import StepGlue.Proofs.FirstOccurrence
import StepGlue.Proofs.Text.Lines
import StepGlue.Step.Basic
import StepGlue.Step.Line

/-!
# Step lines are steps

What is classified as a step line reads as a step: a keyword that is replaced leaves a text behind
that does not start or end with a blank, and the text of a line has no line feed.
-/

namespace StepGlue

open Text

namespace Keyword

variable {line text : List Char} {keyword : Keyword}

theorem opening?_eq_some {tail : List Char} (h : opening? line = some (keyword, tail)) :
    line = keyword.word.toList ++ tail := by
  obtain ⟨other, -, hother⟩ := List.exists_of_findSome?_eq_some h
  obtain ⟨rest, hrest, heq⟩ := Option.map_eq_some_iff.mp hother
  obtain ⟨rfl, rfl⟩ := Prod.mk.inj heq
  exact afterPrefix?_eq_some_iff.mp hrest

theorem split?_eq_some (h : split? line = some (keyword, text)) :
    ∃ c rest, line = keyword.word.toList ++ c :: rest ∧ isBlank c ∧ text = trimLeft rest := by
  rw [split?] at h
  split at h
  · rename_i other c rest hopening
    by_cases hc : isBlank c
    · rw [if_pos hc] at h
      obtain ⟨rfl, rfl⟩ := Prod.mk.inj (Option.some.inj h)
      exact ⟨c, rest, opening?_eq_some hopening, hc, rfl⟩
    · rw [if_neg hc] at h
      exact absurd h (by simp)
  · exact absurd h (by simp)

theorem mem_of_split? {c : Char} (h : split? line = some (keyword, text)) (hc : c ∈ text) :
    c ∈ line := by
  obtain ⟨d, rest, rfl, -, rfl⟩ := split?_eq_some h
  have hrest : c ∈ rest := (List.dropWhile_suffix isBlank).subset hc
  simp [hrest]

/-- The text of a trimmed line ends where the line ends. -/
theorem exists_getLast?_of_split? (htrim : trim line = line)
    (h : split? line = some (keyword, text)) :
    ∃ c, text.getLast? = some c ∧ line.getLast? = some c ∧ ¬isBlank c := by
  obtain ⟨b, rest, rfl, hb, rfl⟩ := split?_eq_some h
  have hend := (trim_eq_self_iff.mp htrim).2
  cases hrest : rest.getLast? with
  | none =>
    rw [List.getLast?_eq_none_iff.mp hrest] at hend
    exact absurd hb (hend b (by simp))
  | some c =>
    have hlast : (keyword.word.toList ++ b :: rest).getLast? = some c := by
      rw [List.append_cons, List.getLast?_append, hrest, Option.some_or]
    refine ⟨c, ?_, hlast, hend c hlast⟩
    rw [getLast?_trimLeft, hrest]
    intro d hd
    rw [hrest, Option.mem_some_iff] at hd
    exact hend d (hd ▸ hlast)

theorem split?_given (text : List Char) :
    split? ("Given ".toList ++ text) = some (.given, trimLeft text) := by
  have hlead : "Given ".toList = Keyword.given.word.toList ++ [' '] := by decide
  have hafter : afterPrefix? Keyword.given.word.toList ("Given ".toList ++ text) =
      some (' ' :: text) := by
    rw [afterPrefix?_eq_some_iff, hlead]
    simp
  have hopening : opening? ("Given ".toList ++ text) = some (.given, ' ' :: text) := by
    rw [opening?, all, List.findSome?_cons, hafter]
    rfl
  rw [split?, hopening]
  rfl

end Keyword

namespace Step

theorem exists_parse?_eq_some {line : String} (htrim : trim line.toList = line.toList)
    (hline : OneLine line) (hsplit : (Keyword.split? line.toList).isSome) :
    ∃ step, parse? line = some step ∧ step.line = line := by
  obtain ⟨⟨keyword, text⟩, htext⟩ := Option.isSome_iff_exists.mp hsplit
  have hfeed : '\n' ∉ text := fun hmem => hline (Keyword.mem_of_split? htext hmem)
  refine ⟨ofText line keyword.category text, ?_, rfl⟩
  simp [parse?, htrim, htext, hfeed]

end Step

namespace StepLine

variable {line : String} {lines : List String}

/-- A keyword is replaced in a trimmed line without new blanks at the ends. -/
theorem trim_given_append {line text : List Char} {keyword : Keyword} (htrim : trim line = line)
    (h : Keyword.split? line = some (keyword, text)) :
    trim ("Given ".toList ++ text) = "Given ".toList ++ text := by
  obtain ⟨c, htext, -, hc⟩ := Keyword.exists_getLast?_of_split? htrim h
  refine trim_eq_self (fun b hb => ?_) fun b hb => ?_
  · have hfirst : ("Given ".toList ++ text).head? = some 'G' := rfl
    rw [hfirst, Option.mem_some_iff] at hb
    rw [← hb]
    decide
  · rw [List.getLast?_append, htext, Option.some_or, Option.mem_some_iff] at hb
    exact hb ▸ hc

theorem toList_given_append (text : List Char) :
    ("Given " ++ String.ofList text).toList = "Given ".toList ++ text := by
  simp

theorem normalize_cases {keyword : Keyword} {text : List Char}
    (h : Keyword.split? line.toList = some (keyword, text)) :
    normalize line = "Given " ++ String.ofList text ∨
      normalize line = line ∧ keyword ≠ .and ∧ keyword ≠ .but := by
  cases keyword with
  | given | when | then_ => exact .inr ⟨by simp [normalize, h], by decide, by decide⟩
  | and | but => exact .inl (by simp [normalize, h])

theorem trim_normalize (htrim : trim line.toList = line.toList) (hstep : isStepLine line) :
    trim (normalize line).toList = (normalize line).toList := by
  obtain ⟨⟨keyword, text⟩, hsplit⟩ := Option.isSome_iff_exists.mp hstep
  rcases normalize_cases hsplit with hgiven | ⟨hsame, -⟩
  · rw [hgiven, toList_given_append, trim_given_append htrim hsplit]
  · rw [hsame, htrim]

theorem isStepLine_normalize (hstep : isStepLine line) : isStepLine (normalize line) := by
  obtain ⟨⟨keyword, text⟩, hsplit⟩ := Option.isSome_iff_exists.mp hstep
  rcases normalize_cases hsplit with hgiven | ⟨hsame, -⟩
  · rw [isStepLine, hgiven, toList_given_append, Keyword.split?_given]
    rfl
  · rw [hsame, hstep]

theorem oneLine_normalize (hstep : isStepLine line) (hline : OneLine line) :
    OneLine (normalize line) := by
  obtain ⟨⟨keyword, text⟩, hsplit⟩ := Option.isSome_iff_exists.mp hstep
  rcases normalize_cases hsplit with hgiven | ⟨hsame, -⟩
  · rw [hgiven, oneLine_append]
    exact ⟨oneLine_literal rfl,
      oneLine_ofList.mpr fun hmem => hline (Keyword.mem_of_split? hsplit hmem)⟩
  · rwa [hsame]

theorem exists_eq_normalize_of_mem_classify (h : line ∈ classify lines) :
    ∃ original ∈ lines, isStepLine (String.ofList (trim original.toList)) ∧
      normalize (String.ofList (trim original.toList)) = line := by
  rw [classify, List.mem_eraseDups] at h
  obtain ⟨trimmed, htrimmed, rfl⟩ := List.mem_map.mp h
  obtain ⟨hmem, hstep⟩ := List.mem_filter.mp htrimmed
  obtain ⟨original, horiginal, rfl⟩ := List.mem_map.mp hmem
  exact ⟨original, horiginal, hstep, rfl⟩

theorem isStep_of_mem_classify (hlines : ∀ line ∈ lines, OneLine line) (h : line ∈ classify lines) :
    trim line.toList = line.toList ∧ OneLine line ∧ isStepLine line := by
  obtain ⟨original, horiginal, hstep, rfl⟩ := exists_eq_normalize_of_mem_classify h
  have hline : OneLine (String.ofList (trim original.toList)) := by
    rw [oneLine_ofList]
    exact fun hfeed => hlines original horiginal (mem_of_mem_trim hfeed)
  exact ⟨trim_normalize (by simp) hstep, oneLine_normalize hstep hline, isStepLine_normalize hstep⟩

/-- A classified line reads as a step with that line. -/
theorem exists_parse?_of_mem_classify (hlines : ∀ line ∈ lines, OneLine line)
    (h : line ∈ classify lines) : ∃ step, Step.parse? line = some step ∧ step.line = line := by
  obtain ⟨htrim, hline, hstep⟩ := isStep_of_mem_classify hlines h
  exact Step.exists_parse?_eq_some htrim hline hstep

/-- Steps have the lines that they were read from, unless these change when they are read. -/
theorem map_line_filterMap_parse?
    (h : ∀ line ∈ lines, ∀ step, Step.parse? line = some step → step.line = line) :
    (lines.filterMap Step.parse?).map Step.line =
      lines.filter fun line => (Step.parse? line).isSome := by
  induction lines with
  | nil => rfl
  | cons line lines ih =>
    rw [List.forall_mem_cons] at h
    cases hparse : Step.parse? line with
    | none =>
      rw [List.filterMap_cons_none hparse, List.filter_cons_of_neg (by simp [hparse]), ih h.2]
    | some step =>
      rw [List.filterMap_cons_some hparse, List.filter_cons_of_pos (by simp [hparse]),
        List.map_cons, h.1 step hparse, ih h.2]

theorem nodup_classify (lines : List String) : (classify lines).Nodup :=
  nodup_eraseDups _

/-- The step lines of a text are among its lines that are not blank. -/
theorem stepLines_splitLines (text : String) :
    ((splitLines text).map fun line => String.ofList (trim line.toList)).filter isStepLine =
      ((solidLines text.toList).map String.ofList).filter isStepLine := by
  have hsolid : ∀ pieces : List (List Char),
      (((pieces.map trim).filter (!·.isEmpty)).map String.ofList).filter isStepLine =
        ((pieces.map trim).map String.ofList).filter isStepLine := by
    intro pieces
    rw [List.filter_map, List.filter_filter, List.filter_map (l := pieces.map trim)]
    congr 1
    refine List.filter_congr fun piece _ => ?_
    cases piece with
    | nil => rfl
    | cons c rest => simp
  rw [splitLines, solidLines, hsolid, List.map_map, List.map_map]
  refine congrArg (List.filter isStepLine) (List.map_congr_left fun piece _ => ?_)
  simp

/-- What is classified of a text are its lines that are not blank. -/
theorem classify_splitLines (text : String) : classify (splitLines text) =
    (((solidLines text.toList).map String.ofList).filter isStepLine
      |>.map normalize).eraseDups := by
  rw [classify, stepLines_splitLines]

theorem classify_splitLines_trim (text : String) :
    classify (splitLines (String.ofList (trim text.toList))) = classify (splitLines text) := by
  rw [classify_splitLines, classify_splitLines, String.toList_ofList, solidLines_trim]

theorem classify_eq_nil_iff {lines : List String}
    (hlines : ∀ line ∈ lines, trim line.toList = line.toList) :
    classify lines = [] ↔ lines.any isStepLine = false := by
  have hmap : (lines.map fun line => String.ofList (trim line.toList)) = lines := by
    conv_rhs => rw [← List.map_id lines]
    refine List.map_congr_left fun line hline => ?_
    rw [hlines line hline, String.ofList_toList, id]
  rw [classify, hmap, List.any_eq_false]
  cases hsteps : lines.filter isStepLine with
  | nil => exact iff_of_true rfl (by simpa [List.filter_eq_nil_iff] using hsteps)
  | cons first rest =>
    have hfirst : first ∈ lines.filter isStepLine := by simp [hsteps]
    obtain ⟨hmem, hstep⟩ := List.mem_filter.mp hfirst
    refine iff_of_false ?_ fun hnone => hnone first hmem hstep
    rw [List.map_cons, List.eraseDups_cons]
    exact List.cons_ne_nil _ _

end StepLine

end StepGlue
