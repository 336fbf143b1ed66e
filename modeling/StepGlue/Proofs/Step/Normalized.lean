import StepGlue.Proofs.Step.Opening

/-!
# Reading a normalized line

Normalizing looks at a line with all its blanks, and reading looks at it without those at its ends.
Both find the same text after the keyword, so a line and its normalized form read as the same step,
but for the line that it came from.
-/

namespace StepGlue

open Text

namespace Keyword

variable {keyword : Keyword} {gap rest line : List Char}

theorem not_isBlank_of_mem_word {c : Char} (h : c ∈ keyword.word.toList) : ¬isBlank c := by
  have hall : (keyword.word.toList.all fun c => !isBlank c) = true := by cases keyword <;> decide
  simpa using List.all_eq_true.mp hall c h

theorem trim_word (keyword : Keyword) : trim keyword.word.toList = keyword.word.toList :=
  trim_eq_self (fun _ hc => not_isBlank_of_mem_word (List.mem_of_mem_head? hc))
    fun _ hc => not_isBlank_of_mem_word (List.mem_of_getLast? hc)

theorem split?_word (keyword : Keyword) : split? keyword.word.toList = none := by
  cases keyword <;> decide

/-- Without the blanks at its ends, a line that opens with a keyword ends after the keyword or after
the text. -/
theorem Opens.trim_eq (h : keyword.Opens gap rest line) (hrest : trim rest ≠ []) :
    ∃ blanks, keyword.Opens blanks (trim rest) (trim line) := by
  obtain ⟨before, after, hbefore, hafter, hsplit⟩ := exists_blanks_trim rest
  refine ⟨gap ++ before, ?_, by simp [h.gap_ne_nil], by simp [h.gap_blank, hbefore]⟩
  have hline : line = (keyword.word.toList ++ (gap ++ before ++ trim rest)) ++ after := by
    conv_lhs => rw [h.eq_append, hsplit]
    simp only [List.append_assoc]
  rw [hline, trim_append_of_blank hafter]
  refine trim_eq_self (fun c hc => ?_) fun c hc => ?_
  · have hword : keyword.word.toList ≠ [] := by cases keyword <;> decide
    rw [List.head?_append_of_ne_nil _ hword] at hc
    exact not_isBlank_of_mem_word (List.mem_of_mem_head? hc)
  · rw [← List.append_assoc, List.getLast?_append_of_ne_nil _ hrest] at hc
    exact not_isBlank_of_mem_getLast?_trim hc

theorem Opens.split?_trim (h : keyword.Opens gap rest line) :
    split? (trim line) = if (trim rest).isEmpty then none else some (keyword, trim rest) := by
  by_cases hrest : trim rest = []
  · have hblank : (gap ++ rest).all isBlank := by
      rw [List.all_append, h.gap_blank, trim_eq_nil_iff.mp hrest, Bool.and_true]
    rw [h.eq_append, trim_append_of_blank hblank, trim_word, split?_word, hrest]
    rfl
  · obtain ⟨blanks, hopens⟩ := h.trim_eq hrest
    have hhead : trimLeft (trim rest) = trim rest :=
      trimLeft_eq_self fun _ => not_isBlank_of_mem_head?_trim
    rw [hopens.split?_eq, hhead, if_neg (by simpa using hrest)]

end Keyword

namespace StepLine

variable {line : String}

/-- What becomes of a line: an `And` or `But` at its start gives way to `Given`, and all the blanks
after it to a single space. -/
inductive Normalizes (line : String) : String → Prop where
  | conjunction (keyword : Keyword) (gap body : List Char)
      (hkeyword : keyword = .and ∨ keyword = .but) (hopens : keyword.Opens gap body line.toList)
      (hbody : ∀ c ∈ body.head?, ¬isBlank c) : Normalizes line ("Given " ++ String.ofList body)
  | other (h : ∀ keyword gap body, Keyword.Opens keyword gap body line.toList →
      keyword ≠ .and ∧ keyword ≠ .but) : Normalizes line line

theorem normalizes_normalize (line : String) : Normalizes line (normalize line) := by
  cases hsplit : Keyword.split? line.toList with
  | none =>
    have hsame : normalize line = line := by rw [normalize, hsplit]
    rw [hsame]
    refine .other fun keyword gap body hopens => ?_
    rw [hopens.split?_eq] at hsplit
    cases hsplit
  | some opening =>
    obtain ⟨keyword, body⟩ := opening
    obtain ⟨gap, hopens, hbody⟩ := Keyword.split?_eq_some_iff.mp hsplit
    by_cases hconjunction : keyword = .and ∨ keyword = .but
    · have hgiven : normalize line = "Given " ++ String.ofList body := by
        rcases hconjunction with rfl | rfl <;> rw [normalize, hsplit]
      rw [hgiven]
      exact .conjunction keyword gap body hconjunction hopens hbody
    · have hsame : normalize line = line := by
        cases keyword with
        | given | when | then_ => rw [normalize, hsplit]
        | and | but => exact absurd (by decide) hconjunction
      rw [hsame]
      refine .other fun other gap' rest hother => ?_
      obtain ⟨rfl, -⟩ := Prod.mk.inj (Option.some.inj (hsplit.symm.trans hother.split?_eq))
      exact not_or.mp hconjunction

/-- A conjunction opens a line as `Given` does, with the same text after it. -/
theorem Normalizes.split?_trim {result : String} (h : Normalizes line result) :
    ((Keyword.split? (trim result.toList)).map fun (keyword, text) => (keyword.category, text)) =
      (Keyword.split? (trim line.toList)).map fun (keyword, text) => (keyword.category, text) := by
  cases h with
  | other => rfl
  | conjunction keyword gap body hkeyword hopens hbody =>
    have hgiven : Keyword.given.Opens [' '] body ("Given " ++ String.ofList body).toList :=
      ⟨toList_given_append body, List.cons_ne_nil _ _, rfl⟩
    rw [hgiven.split?_trim, hopens.split?_trim]
    split
    · rfl
    · rcases hkeyword with rfl | rfl <;> rfl

end StepLine

namespace Step

open StepLine (normalize stripped Normalizes)

theorem parse?_eq_bind (line : String) : parse? line =
    ((Keyword.split? (trim line.toList)).map fun (keyword, text) => (keyword.category, text)).bind
      fun (category, text) =>
        if text.contains '\n' then none else some (ofText (stripped line) category text) := by
  rw [parse?]
  cases Keyword.split? (trim line.toList) with
  | none => rfl
  | some opening => rfl

/-- Normalizing replaces `And` and `But`, and what is read then is the step that the line as it was
reads as, with another line. -/
theorem parse?_normalize (line : String) : Normalizes line (normalize line) ∧
    parse? (normalize line) =
      (parse? line).map fun step => { step with line := stripped (normalize line) } := by
  have hnormalizes := StepLine.normalizes_normalize line
  refine ⟨hnormalizes, ?_⟩
  rw [parse?_eq_bind, hnormalizes.split?_trim, parse?_eq_bind line, Option.map_bind]
  congr 1
  funext ⟨category, text⟩
  dsimp only [Function.comp]
  split <;> rfl

end Step

end StepGlue
