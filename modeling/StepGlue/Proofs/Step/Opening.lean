import StepGlue.Proofs.Step.Basic
import StepGlue.Proofs.Step.Line

/-!
# How a line opens

A line that is a step line opens with a keyword and blanks. There is one such keyword, and the text
after all the blanks is the step text if it goes on to the end of the line. An expression that tries
the blanks one by one finds further matches, but no further lines, and no shorter text
(`Step.isReadAsClassified`).
-/

namespace StepGlue

open Text

namespace Keyword

/-- A keyword at the start of a line, some of the blanks after it, and the rest of the line. -/
structure Opens (keyword : Keyword) (gap rest line : List Char) : Prop where
  eq_append : line = keyword.word.toList ++ (gap ++ rest)
  gap_ne_nil : gap ≠ []
  gap_blank : gap.all isBlank

variable {keyword other : Keyword} {line gap rest body : List Char}

/-- No word of a keyword is the beginning of another one. -/
theorem eq_of_word_append {s s' : List Char}
    (h : keyword.word.toList ++ s = other.word.toList ++ s') : keyword = other := by
  cases keyword <;> cases other <;> first | rfl | simp [word] at h

theorem opening?_eq_some_iff :
    opening? line = some (keyword, rest) ↔ line = keyword.word.toList ++ rest := by
  refine ⟨opening?_eq_some, fun h => ?_⟩
  have hfound : (opening? line).isSome := by
    refine List.findSome?_isSome_iff.mpr ⟨keyword, by cases keyword <;> decide, ?_⟩
    rw [Option.isSome_map, afterPrefix?_eq_some_iff.mpr h]
    rfl
  obtain ⟨⟨other, rest'⟩, hother⟩ := Option.isSome_iff_exists.mp hfound
  have hline := opening?_eq_some hother
  obtain rfl := eq_of_word_append (h.symm.trans hline)
  rw [hother, List.append_cancel_left (hline.symm.trans h)]

theorem Opens.split?_eq (h : keyword.Opens gap rest line) :
    split? line = some (keyword, trimLeft rest) := by
  obtain ⟨b, blanks, rfl⟩ := List.exists_cons_of_ne_nil h.gap_ne_nil
  obtain ⟨hb, hblanks⟩ : isBlank b ∧ blanks.all isBlank := by simpa using h.gap_blank
  rw [split?, opening?_eq_some_iff.mpr h.eq_append]
  dsimp only [List.cons_append]
  rw [if_pos hb, trimLeft_append_of_blank hblanks]

/-- A line is split into its keyword and the text after all the blanks that follow it. -/
theorem split?_eq_some_iff : split? line = some (keyword, body) ↔
    ∃ gap, keyword.Opens gap body line ∧ ∀ c ∈ body.head?, ¬isBlank c := by
  constructor
  · intro h
    obtain ⟨b, after, rfl, hb, rfl⟩ := split?_eq_some h
    refine ⟨b :: after.takeWhile isBlank, ⟨?_, List.cons_ne_nil _ _, ?_⟩, fun c hc => ?_⟩
    · rw [List.cons_append, trimLeft, List.takeWhile_append_dropWhile]
    · rw [List.all_cons, hb, List.all_takeWhile, Bool.and_true]
    · have hhead := List.head?_dropWhile_not isBlank after
      rw [trimLeft] at hc
      rw [Option.mem_def.mp hc] at hhead
      simpa using hhead
  · rintro ⟨gap, hopens, hbody⟩
    rw [hopens.split?_eq, trimLeft_eq_self hbody]

end Keyword

namespace StepLine

variable {line : String} {keyword : Keyword} {gap body : List Char}

/-- A line without the blanks at its ends. -/
def stripped (line : String) : String :=
  String.ofList (trim line.toList)

theorem toList_stripped (line : String) : (stripped line).toList = trim line.toList :=
  String.toList_ofList

theorem trim_stripped (line : String) : trim (stripped line).toList = (stripped line).toList := by
  rw [toList_stripped, trim_trim]

theorem isStepLine_iff :
    isStepLine line ↔ ∃ keyword gap rest, Keyword.Opens keyword gap rest line.toList := by
  rw [isStepLine, Option.isSome_iff_exists]
  constructor
  · rintro ⟨⟨keyword, body⟩, hsplit⟩
    obtain ⟨gap, hopens, -⟩ := Keyword.split?_eq_some_iff.mp hsplit
    exact ⟨keyword, gap, body, hopens⟩
  · rintro ⟨keyword, gap, rest, hopens⟩
    exact ⟨_, hopens.split?_eq⟩

/-- Whether the text after the keyword of a line and all blanks there goes on on another line. -/
def BodyBreaks (line : String) : Prop :=
  ∃ keyword gap body, Keyword.Opens keyword gap body line.toList ∧ (∀ c ∈ body.head?, ¬isBlank c) ∧
    '\n' ∈ body

theorem bodyBreaks_iff : BodyBreaks line ↔
    ((Keyword.split? line.toList).any fun (_, body) => body.contains '\n') = true := by
  rw [Option.any_eq_true]
  constructor
  · rintro ⟨keyword, gap, body, hopens, hbody, hfeed⟩
    exact ⟨(keyword, body), Keyword.split?_eq_some_iff.mpr ⟨gap, hopens, hbody⟩,
      by simpa using hfeed⟩
  · rintro ⟨⟨keyword, body⟩, hsplit, hfeed⟩
    obtain ⟨gap, hopens, hbody⟩ := Keyword.split?_eq_some_iff.mp hsplit
    exact ⟨keyword, gap, body, hopens, hbody, by simpa using hfeed⟩

instance (line : String) : Decidable (BodyBreaks line) :=
  decidable_of_iff _ bodyBreaks_iff.symm

end StepLine

namespace Step

open StepLine (stripped BodyBreaks isStepLine)

variable {line : String} {keyword : Keyword} {text : List Char} {step : Step}

/-- A way to match a line as a keyword, blanks and a text without line feeds. A line feed at the
very end may be left over. -/
def IsMatch (line : List Char) (keyword : Keyword) (text : List Char) : Prop :=
  ∃ gap left, keyword.Opens gap (text ++ left) line ∧ '\n' ∉ text ∧ (left = [] ∨ left = ['\n'])

/-- What reading a line gives, told by how the line without the blanks at its ends is classified. -/
structure IsReadAsClassified (line : String) : Prop where
  isSome_iff : (parse? line).isSome ↔ isStepLine (stripped line) ∧ ¬BodyBreaks (stripped line)
  line_eq : ∀ step, parse? line = some step → step.line = stripped line
  text : ∀ step, parse? line = some step → ∃ keyword gap,
    Keyword.Opens keyword gap step.text.toList (stripped line).toList ∧
      step.category = keyword.category ∧ step.text ≠ "" ∧ trim step.text.toList = step.text.toList
  isSome_of_isMatch : ∀ keyword text, IsMatch (stripped line).toList keyword text →
    (parse? line).isSome
  isSuffix_of_isMatch : ∀ step, parse? line = some step → ∀ keyword text,
    IsMatch (stripped line).toList keyword text →
      step.category = keyword.category ∧ step.text.toList <:+ text

theorem isSome_parse?_iff : (parse? line).isSome ↔
    isStepLine (stripped line) ∧ ¬BodyBreaks (stripped line) := by
  rw [isStepLine, StepLine.bodyBreaks_iff, StepLine.toList_stripped, parse?]
  cases Keyword.split? (trim line.toList) with
  | none => simp
  | some opening => by_cases hfeed : '\n' ∈ opening.2 <;> simp [hfeed]

theorem IsMatch.split?_eq (h : IsMatch (stripped line).toList keyword text) :
    Keyword.split? (trim line.toList) = some (keyword, trimLeft text) ∧ '\n' ∉ trimLeft text := by
  obtain ⟨gap, left, hopens, hfeed, hleft⟩ := h
  -- a line feed that is left over would be a blank at the end of the line
  obtain rfl : left = [] := by
    refine hleft.resolve_right fun hfeedLeft => ?_
    have hlast := (trim_eq_self_iff.mp (StepLine.trim_stripped line)).2 '\n'
    rw [hopens.eq_append, hfeedLeft, ← List.append_assoc, ← List.append_assoc,
      List.getLast?_concat] at hlast
    exact hlast rfl (by decide)
  rw [List.append_nil, StepLine.toList_stripped] at hopens
  exact ⟨hopens.split?_eq, fun hmem => hfeed ((List.dropWhile_suffix isBlank).subset hmem)⟩

theorem isReadAsClassified (line : String) : IsReadAsClassified line where
  isSome_iff := isSome_parse?_iff
  line_eq step h := by
    obtain ⟨keyword, text, -, -, rfl⟩ := parse?_eq_some_iff.mp h
    rfl
  text step h := by
    obtain ⟨keyword, text, hsplit, -, rfl⟩ := parse?_eq_some_iff.mp h
    obtain ⟨gap, hopens, hhead⟩ := Keyword.split?_eq_some_iff.mp hsplit
    obtain ⟨c, hlast, -, hc⟩ := Keyword.exists_getLast?_of_split? (trim_trim _) hsplit
    have htext :
        (ofText (String.ofList (trim line.toList)) keyword.category text).text.toList = text :=
      String.toList_ofList
    refine ⟨keyword, gap, ?_, rfl, ?_, ?_⟩
    · rw [htext, StepLine.toList_stripped]
      exact hopens
    · intro hempty
      rw [hempty] at htext
      rw [← htext] at hlast
      cases hlast
    · rw [htext]
      exact trim_eq_self hhead fun d hd => Option.some.inj (hlast.symm.trans hd) ▸ hc
  isSome_of_isMatch keyword text h := by
    obtain ⟨hsplit, hfeed⟩ := h.split?_eq
    rw [parse?_eq_some_iff.mpr ⟨keyword, _, hsplit, hfeed, rfl⟩]
    rfl
  isSuffix_of_isMatch step hstep keyword text h := by
    obtain ⟨hsplit, -⟩ := h.split?_eq
    obtain ⟨keyword', text', hsplit', -, rfl⟩ := parse?_eq_some_iff.mp hstep
    obtain ⟨rfl, rfl⟩ := Prod.mk.inj (Option.some.inj (hsplit.symm.trans hsplit'))
    refine ⟨rfl, ?_⟩
    rw [ofText, String.toList_ofList]
    exact List.dropWhile_suffix isBlank

end Step

end StepGlue
