import StepGlue.Proofs.Method.Rendered

/-!
# Comments

A comment ends at the first end mark after its start, wherever that mark comes from. The line of a
step is copied into the comment of its method as it is, so it is the line that decides.
-/

namespace StepGlue

open Text

/-- The text up to the first end of a comment, and what follows that end. -/
def cutComment? : List Char → Option (List Char × List Char)
  | [] => none
  | '*' :: '/' :: rest => some ([], rest)
  | c :: rest => (cutComment? rest).map fun (inside, after) => (c :: inside, after)

/-- The documentation comment that code starts with, and the code after it. -/
def docComment? (code : List Char) : Option (List Char × List Char) :=
  (afterPrefix? "/**".toList (trimLeft code)).bind cutComment?

/-- Whether a text would end the comment that it stands in. -/
def ClosesComment (s : List Char) : Prop :=
  ['*', '/'] <:+: s

instance : DecidablePred ClosesComment :=
  fun s => inferInstanceAs (Decidable (['*', '/'] <:+: s))

/-! ### Where a comment ends -/

theorem closesComment_cons {c : Char} {s : List Char} :
    ClosesComment (c :: s) ↔ (c = '*' ∧ s.head? = some '/') ∨ ClosesComment s := by
  rw [ClosesComment, List.infix_cons_iff, List.cons_prefix_cons,
    List.singleton_prefix_iff_head?_eq_some]
  exact or_congr_left (and_congr_left' eq_comm)

theorem closesComment_append {s t : List Char} :
    ClosesComment (s ++ t) ↔
      ClosesComment s ∨ ClosesComment t ∨ (s.getLast? = some '*' ∧ t.head? = some '/') := by
  induction s with
  | nil => simp [ClosesComment]
  | cons c s ih =>
    rw [List.cons_append, closesComment_cons, ih, closesComment_cons]
    cases s with
    | nil => simp [ClosesComment]; tauto
    | cons d s => simp; tauto

/-- What surrounds a text does not matter if it holds no end mark and completes none. -/
theorem closesComment_between_iff {before s after : List Char} (hbefore : ¬ClosesComment before)
    (hlast : before.getLast? ≠ some '*') (hafter : ¬ClosesComment after)
    (hhead : after.head? ≠ some '/') :
    ClosesComment (before ++ s ++ after) ↔ ClosesComment s := by
  simp [closesComment_append, hbefore, hlast, hafter, hhead]

theorem not_closesComment_of_not_mem {s : List Char} (h : '/' ∉ s) : ¬ClosesComment s :=
  fun hcloses => h (hcloses.subset (by simp))

theorem cutComment?_cons {c : Char} {s : List Char} (h : ¬(c = '*' ∧ s.head? = some '/')) :
    cutComment? (c :: s) = (cutComment? s).map fun (inside, after) => (c :: inside, after) := by
  rw [cutComment?]
  rintro rest rfl rfl
  exact h ⟨rfl, rfl⟩

theorem cutComment?_append {inside after : List Char} (h : ¬ClosesComment inside) :
    cutComment? (inside ++ '*' :: '/' :: after) = some (inside, after) := by
  induction inside with
  | nil => rfl
  | cons c inside ih =>
    rw [closesComment_cons, not_or] at h
    have hopen : ¬(c = '*' ∧ (inside ++ '*' :: '/' :: after).head? = some '/') := by
      cases inside with
      | nil => simp
      | cons d inside => exact h.1
    rw [List.cons_append, cutComment?_cons hopen, ih h.2]
    rfl

theorem eq_append_of_cutComment? {s inside after : List Char}
    (h : cutComment? s = some (inside, after)) :
    s = inside ++ '*' :: '/' :: after ∧ ¬ClosesComment inside := by
  fun_induction cutComment? s generalizing inside with
  | case1 => simp at h
  | case2 rest =>
    obtain ⟨rfl, rfl⟩ := Prod.mk.inj (Option.some.inj h)
    exact ⟨rfl, not_closesComment_of_not_mem List.not_mem_nil⟩
  | case3 c rest hopen ih =>
    obtain ⟨⟨inside', after'⟩, hcut, heq⟩ := Option.map_eq_some_iff.mp h
    obtain ⟨rfl, rfl⟩ := Prod.mk.inj heq
    obtain ⟨rfl, hinside⟩ := ih hcut
    refine ⟨rfl, ?_⟩
    rw [closesComment_cons, not_or]
    refine ⟨fun ⟨hc, hhead⟩ => ?_, hinside⟩
    obtain ⟨tail, rfl⟩ := List.head?_eq_some_iff.mp hhead
    exact hopen _ hc rfl

theorem cutComment?_eq_some_iff {s inside after : List Char} :
    cutComment? s = some (inside, after) ↔
      s = inside ++ '*' :: '/' :: after ∧ ¬ClosesComment inside := by
  refine ⟨eq_append_of_cutComment?, ?_⟩
  rintro ⟨rfl, h⟩
  exact cutComment?_append h

namespace Method

/-! ### The comment of a method -/

/-- What stands between the start of a comment and the line of the step. -/
def commentLead : String := "\n     * Step: "

/-- The text between the marks of a method's comment. -/
def commentText (step : Step) : String :=
  commentLead ++ step.line ++
    (if step.parameters.isEmpty then "\n     "
      else "\n     * Parameters: " ++ toString step.parameters.length ++ "\n     ")

/-- The lines of a method after its comment: annotation, signature and body. -/
def codeLines (step : Step) (name : String) : List String :=
  (lines step name).drop (comment step).length

/-- A method starts with a comment that the last line of the comment ends, with all its code after
it. -/
def CommentEndsInPlace (method : Method) : Prop :=
  docComment? method.text.toList = some ((commentText method.step).toList,
    '\n' :: ("\n".intercalate (codeLines method.step method.name)).toList)

theorem lines_eq_comment_append (step : Step) (name : String) :
    lines step name = comment step ++ codeLines step name := by
  simp only [codeLines, lines, List.append_assoc, List.drop_left]

theorem codeLines_ne_nil (step : Step) (name : String) : codeLines step name ≠ [] := by
  simp [codeLines, lines]

theorem endedLines_comment (step : Step) : endedLines (comment step) =
    "    /**".toList ++ (commentText step).toList ++ "*/\n".toList := by
  by_cases h : step.parameters.isEmpty <;>
    simp [comment, commentText, commentLead, h]

theorem docComment?_start (rest : List Char) :
    docComment? ("    /**".toList ++ rest) = cutComment? rest :=
  rfl

theorem toList_text_render (step : Step) (registry : Registry) :
    (render step registry).1.text.toList =
      "    /**".toList ++ ((commentText step).toList ++ '*' :: '/' :: '\n' ::
        ("\n".intercalate (codeLines step (render step registry).1.name)).toList) := by
  have htext : (render step registry).1.text =
      "\n".intercalate (lines step (render step registry).1.name) :=
    rfl
  rw [htext, lines_eq_comment_append, toList_intercalate_of_append (codeLines_ne_nil _ _),
    endedLines_comment, List.append_assoc, List.append_assoc]
  rfl

theorem commentEndsInPlace_iff_not_closesComment (step : Step) (registry : Registry) :
    (render step registry).1.CommentEndsInPlace ↔ ¬ClosesComment (commentText step).toList := by
  rw [CommentEndsInPlace, toList_text_render, docComment?_start, cutComment?_eq_some_iff]
  exact and_iff_right rfl

theorem not_closesComment_commentLead : ¬ClosesComment commentLead.toList := by
  decide +kernel

/-- Only the line can end the comment of its method early. -/
theorem closesComment_commentText_iff (step : Step) :
    ClosesComment (commentText step).toList ↔ ClosesComment step.line.toList := by
  have hcount : '/' ∉ (toString step.parameters.length).toList :=
    fun hmem => absurd (isDigit_of_mem_toString hmem) (by decide)
  rw [commentText, String.toList_append, String.toList_append]
  refine closesComment_between_iff not_closesComment_commentLead (by decide)
    (not_closesComment_of_not_mem ?_) ?_
  · split
    · decide
    · rw [String.toList_append, String.toList_append, List.mem_append, List.mem_append, not_or,
        not_or]
      exact ⟨⟨by decide, hcount⟩, by decide⟩
  · split <;> simp

theorem closesComment_trim_iff (s : List Char) : ClosesComment (trim s) ↔ ClosesComment s := by
  obtain ⟨before, after, hbefore, hafter, hs⟩ := exists_blanks_trim s
  have hstar : '*' ∉ before := fun hmem => absurd (List.all_eq_true.mp hbefore _ hmem) (by decide)
  have hslash : ∀ {blanks : List Char}, blanks.all isBlank → '/' ∉ blanks :=
    fun hblanks hmem => absurd (List.all_eq_true.mp hblanks _ hmem) (by decide)
  conv_rhs => rw [hs]
  refine (closesComment_between_iff (not_closesComment_of_not_mem (hslash hbefore)) ?_
    (not_closesComment_of_not_mem (hslash hafter)) ?_).symm
  · exact fun hlast => hstar (List.mem_of_getLast? hlast)
  · exact fun hhead => hslash hafter (List.mem_of_head? hhead)

theorem closesComment_line_iff {line : String} {step : Step} (h : Step.parse? line = some step) :
    ClosesComment step.line.toList ↔ ClosesComment line.toList := by
  obtain ⟨keyword, text, -, -, rfl⟩ := Step.parse?_eq_some_iff.mp h
  rw [← closesComment_trim_iff line.toList, Step.ofText, String.toList_ofList]

theorem lines_eq_append_drop (step : Step) (name : String) :
    lines step name = ["    /**", "     * Step: " ++ step.line] ++ (lines step name).drop 2 :=
  rfl

/-- A line that holds an end mark ends the comment there, and stands in the code from there on. -/
theorem docComment?_render_of_cut {step : Step} {inside outside : List Char}
    (h : cutComment? step.line.toList = some (inside, outside)) (registry : Registry) :
    docComment? (render step registry).1.text.toList =
      some (commentLead.toList ++ inside, outside ++ '\n' ::
        ("\n".intercalate ((lines step (render step registry).1.name).drop 2)).toList) := by
  obtain ⟨hline, hinside⟩ := cutComment?_eq_some_iff.mp h
  have htext : (render step registry).1.text =
      "\n".intercalate (lines step (render step registry).1.name) :=
    rfl
  have hne : (lines step (render step registry).1.name).drop 2 ≠ [] := by
    simp [lines, comment]
  have hlead : ¬ClosesComment (commentLead.toList ++ inside) := by
    rw [closesComment_append, not_or, not_or]
    exact ⟨not_closesComment_commentLead, hinside, fun hmark => absurd hmark.1 (by decide)⟩
  have hrest (rest : List Char) : endedLines ["    /**", "     * Step: " ++ step.line] ++ rest =
      "    /**".toList ++ (commentLead.toList ++ inside ++ '*' :: '/' ::
        (outside ++ '\n' :: rest)) := by
    simp [commentLead, hline]
  rw [htext, lines_eq_append_drop, toList_intercalate_of_append hne, hrest, docComment?_start,
    cutComment?_eq_some_iff]
  exact ⟨rfl, hlead⟩

/-- **Who ends the comment of a method.** The comment of a method ends at its own last line, and
annotation, signature and body follow it, if and only if the line of the step holds no end mark. If
it does, the comment ends inside the line, and the rest of the line stands in the code. -/
theorem commentEndsInPlace_iff {line : String} {step : Step} (h : Step.parse? line = some step)
    (registry : Registry) :
    ((render step registry).1.CommentEndsInPlace ↔ ¬ClosesComment line.toList) ∧
    ∀ inside outside, cutComment? step.line.toList = some (inside, outside) →
      docComment? (render step registry).1.text.toList =
        some (commentLead.toList ++ inside, outside ++ '\n' ::
          ("\n".intercalate ((lines step (render step registry).1.name).drop 2)).toList) := by
  refine ⟨?_, fun inside outside hcut => docComment?_render_of_cut hcut registry⟩
  rw [commentEndsInPlace_iff_not_closesComment, closesComment_commentText_iff,
    closesComment_line_iff h]

/-- A star and a slash that are not next to each other leave the comment whole. -/
theorem commentEndsInPlace_of_apart : ∃ step, Step.parse? "When I open /a/*b" = some step ∧
    (render step .empty).1.CommentEndsInPlace := by
  obtain ⟨step, hstep⟩ := Option.isSome_iff_exists.mp
    (show (Step.parse? "When I open /a/*b").isSome by decide +kernel)
  exact ⟨step, hstep, (commentEndsInPlace_iff hstep .empty).1.mpr (by decide +kernel)⟩

/-- A line with an end mark in it. -/
theorem not_commentEndsInPlace_of_mark : ∃ step, Step.parse? "Given a */ b" = some step ∧
    ¬(render step .empty).1.CommentEndsInPlace := by
  obtain ⟨step, hstep⟩ := Option.isSome_iff_exists.mp
    (show (Step.parse? "Given a */ b").isSome by decide +kernel)
  refine ⟨step, hstep, ?_⟩
  rw [commentEndsInPlace_iff_not_closesComment, closesComment_commentText_iff,
    closesComment_line_iff hstep, not_not]
  decide +kernel

end Method

end StepGlue
