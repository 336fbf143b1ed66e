import StepGlue.Method.Rendered
import StepGlue.Proofs.Layout
import StepGlue.Proofs.Method.Annotation
import StepGlue.Proofs.Method.Numbering
import StepGlue.Proofs.Step.OneLine

/-!
# Rendered methods

Methods are rendered under names of their own. Of the lines of a method only its annotation starts
with an at sign, for all others start with something that no step has a say in.
-/

namespace StepGlue

open Text

/-! ### Lines of a method -/

/-- A blank note or a comment on one line. -/
def IsNote (note : String) : Prop :=
  note = "" ∨ OneLine note ∧ ['/', '/'] <+: note.toList

/-- Whether a text makes every line a comment that it starts. -/
def startsNote (start : List Char) : Bool :=
  !start.contains '\n' && start.take 2 == ['/', '/']

theorem IsNote.append {start : List Char} {rest : String} (h : startsNote start)
    (hrest : OneLine rest) : IsNote (String.ofList start ++ rest) := by
  rw [startsNote, Bool.and_eq_true, Bool.not_eq_true', List.contains_eq_mem,
    decide_eq_false_iff_not, beq_iff_eq] at h
  obtain ⟨hfeed, htake⟩ := h
  refine .inr ⟨oneLine_append.mpr ⟨oneLine_ofList.mpr hfeed, hrest⟩, ?_⟩
  have hslashes : ['/', '/'] <+: start := htake ▸ List.take_prefix 2 start
  rw [String.toList_append, String.toList_ofList]
  exact hslashes.trans (List.prefix_append _ _)

theorem IsNote.literal {start : List Char} (h : startsNote start) :
    IsNote (String.ofList start) := by
  simpa using IsNote.append h isPlain_empty.oneLine

theorem Hint.isNote_elementById {name identifier : String} (hname : OneLine name)
    (hidentifier : OneLine identifier) : IsNote (elementById name identifier) := by
  change IsNote
    ("// WebElement " ++ name ++ " = driver.findElement(By.id(\"" ++ identifier ++ "\"));")
  rw [String.append_assoc, String.append_assoc, String.append_assoc]
  apply IsNote.append rfl
  simp only [oneLine_append]
  exact ⟨hname, oneLine_literal rfl, hidentifier, oneLine_literal rfl⟩

/-- All notes that a guide can give. -/
def Hint.Guide.notes (guide : Guide) : List String :=
  guide.heading :: (guide.rules.flatMap Rule.lines ++ guide.otherwise)

theorem Hint.mem_notes_of_mem_lines {category : Category} {text note : String}
    (h : note ∈ lines category text) : note ∈ (guide category).notes := by
  rw [Guide.notes, List.mem_cons, List.mem_append]
  rcases List.mem_cons.mp h with rfl | h
  · exact .inl rfl
  · split at h
    · rename_i rule hfind
      exact .inr (.inl (List.mem_flatMap.mpr ⟨rule, List.mem_of_find?_eq_some hfind, h⟩))
    · exact .inr (.inr h)

/-- Hints are comments, and none of them opens a block. -/
theorem Hint.isNote_and_endsPlain_of_mem_lines {category : Category} {text note : String}
    (h : note ∈ lines category text) : IsNote note ∧ Indentation.endsPlain note := by
  have hall : ∀ note ∈ (guide category).notes, IsNote note ∧ Indentation.endsPlain note := by
    have helement : IsNote (elementById "element" "elementId") :=
      isNote_elementById (oneLine_literal rfl) (oneLine_literal rfl)
    have hinput : IsNote (elementById "inputField" "inputId") :=
      isNote_elementById (oneLine_literal rfl) (oneLine_literal rfl)
    have hend : ∀ name identifier, Indentation.endsPlain (elementById name identifier) :=
      fun _ _ => Indentation.endsPlain_append (Indentation.endsPlain_literal rfl)
    cases category
    all_goals
      simp only [Guide.notes, guide, setupGuide, actionGuide, outcomeGuide, List.flatMap_cons,
        List.flatMap_nil, List.cons_append, List.nil_append, List.forall_mem_cons,
        List.not_mem_nil, false_imp_iff, implies_true, and_true, helement, hinput, hend, true_and]
      and_intros
      all_goals first
        | exact IsNote.literal rfl
        | exact Indentation.endsPlain_literal rfl
  exact hall note (mem_notes_of_mem_lines h)

namespace Method

variable {step : Step} {name : String}

theorem isPlain_noteLine {note : String} (h : IsNote note) : IsPlain (noteLine note) := by
  rw [noteLine]
  split
  · exact isPlain_empty
  · rename_i hne
    obtain ⟨hline, rest, hrest⟩ := h.resolve_left hne
    refine ⟨oneLine_append.mpr ⟨oneLine_literal rfl, hline⟩, ?_⟩
    have hblank : "            ".toList.all isBlank := by decide +kernel
    have hvisible : trimLeft (['/', '/'] ++ rest) = ['/', '/'] ++ rest := rfl
    rw [String.toList_append, trimLeft_append_of_blank hblank, ← hrest, hvisible]
    simp

theorem isPlain_of_mem_comment (hline : OneLine step.line) :
    ∀ line ∈ comment step, IsPlain line := by
  have hcount : ∀ line ∈ (if step.parameters.isEmpty then []
      else ["     * Parameters: " ++ toString step.parameters.length]), IsPlain line := by
    split
    · exact List.forall_mem_nil _
    · rw [List.forall_mem_singleton]
      exact IsPlain.append rfl (oneLine_toString _)
  simp only [comment, List.forall_mem_append, List.forall_mem_cons]
  exact ⟨⟨⟨IsPlain.literal rfl, IsPlain.append rfl hline, List.forall_mem_nil _⟩, hcount⟩,
    IsPlain.literal rfl, List.forall_mem_nil _⟩

theorem isNote_of_mem_notes (hread : step.IsRead) : ∀ note ∈ notes step, IsNote note := by
  have hparameters : ∀ note ∈ (if step.parameters.isEmpty then []
      else "// Available parameters:" :: step.declarations.map ("//   " ++ ·)), IsNote note := by
    split
    · exact List.forall_mem_nil _
    · rw [List.forall_mem_cons, List.forall_mem_map]
      exact ⟨IsNote.literal rfl, fun d hd => IsNote.append rfl (hread.oneLine_declarations d hd)⟩
  have htext : OneLine step.text := hread.one_line
  simp only [notes, List.forall_mem_append, List.forall_mem_cons]
  exact ⟨⟨⟨⟨IsNote.append rfl htext, List.forall_mem_nil _⟩, hparameters⟩,
      fun note hnote => (Hint.isNote_and_endsPlain_of_mem_lines hnote).1⟩,
    .inl rfl, IsNote.literal rfl, IsNote.literal rfl, .inl rfl, List.forall_mem_nil _⟩

theorem oneLine_stringLiteral {text : String} (h : OneLine text) :
    OneLine (stringLiteral text) := by
  rw [stringLiteral, oneLine_ofList, List.mem_append, List.mem_cons, not_or, not_or]
  refine ⟨⟨by decide, newline_not_mem_flatMap (fun c hc => ?_) h⟩, by decide⟩
  split
  · simp [Ne.symm hc]
  · simp [Ne.symm hc]

theorem isPlain_signature (hread : step.IsRead) (hname : OneLine name) : IsPlain
    ("    public void " ++ name ++ "(" ++ ", ".intercalate step.declarations ++ ") \x7b") := by
  have hdeclarations : OneLine (", ".intercalate step.declarations) :=
    oneLine_intercalate (oneLine_literal rfl) hread.oneLine_declarations
  rw [String.append_assoc, String.append_assoc, String.append_assoc]
  apply IsPlain.append rfl
  simp only [oneLine_append]
  exact ⟨hname, oneLine_literal rfl, hdeclarations, oneLine_literal rfl⟩

theorem isPlain_throw (hread : step.IsRead) : IsPlain
    ("            throw new RuntimeException(" ++ stringLiteral (failureMessage step) ++
      ", e);") := by
  have hmessage : OneLine (failureMessage step) :=
    oneLine_append.mpr ⟨oneLine_literal rfl, hread.one_line⟩
  rw [String.append_assoc]
  apply IsPlain.append rfl
  exact oneLine_append.mpr ⟨oneLine_stringLiteral hmessage, oneLine_literal rfl⟩

/-- All lines of a method but its annotation are plain. -/
theorem exists_lines_eq (hread : step.IsRead) (hline : OneLine step.line) (hname : OneLine name) :
    ∃ before after, lines step name = before ++ ("    " ++ step.annotation) :: after ∧
      (∀ line ∈ before, IsPlain line) ∧ ∀ line ∈ after, IsPlain line := by
  refine ⟨comment step, _, by simp only [lines, List.append_assoc, List.cons_append]; rfl,
    isPlain_of_mem_comment hline, ?_⟩
  have hnotes : ∀ line ∈ (notes step).map noteLine, IsPlain line := by
    intro line hmem
    obtain ⟨note, hnote, rfl⟩ := List.mem_map.mp hmem
    exact isPlain_noteLine (isNote_of_mem_notes hread note hnote)
  simp only [List.nil_append, List.forall_mem_cons, List.forall_mem_append]
  exact ⟨isPlain_signature hread hname, IsPlain.literal rfl, hnotes, IsPlain.literal rfl,
    isPlain_throw hread, IsPlain.literal rfl, IsPlain.literal rfl, List.forall_mem_nil _⟩

theorem oneLine_of_mem_lines (hread : step.IsRead) (hline : OneLine step.line)
    (hname : OneLine name) : ∀ line ∈ lines step name, OneLine line := by
  obtain ⟨before, after, hlines, hbefore, hafter⟩ := exists_lines_eq hread hline hname
  have hannotation : OneLine ("    " ++ step.annotation) :=
    oneLine_append.mpr ⟨oneLine_literal rfl, hread.oneLine_annotation⟩
  rw [hlines, List.forall_mem_append, List.forall_mem_cons]
  exact ⟨fun line hmem => (hbefore line hmem).oneLine, hannotation,
    fun line hmem => (hafter line hmem).oneLine⟩

theorem trim_annotation (step : Step) : trim ("    " ++ step.annotation).toList =
    step.annotation.toList := by
  have hchars : step.annotation.toList =
      '@' :: ((step.category.word ++ "(\"" ++ step.anchoredPattern ++ "\"").toList ++ [')']) := by
    simp [Step.annotation]
  have hblank : "    ".toList.all isBlank := by decide +kernel
  rw [String.toList_append, trim, trimLeft_append_of_blank hblank, ← trim, hchars,
    trim_of_ends (by decide) (by decide)]

theorem annotationsAmong_lines (hread : step.IsRead) (hline : OneLine step.line)
    (hname : OneLine name) :
    annotationsAmong ((lines step name).map String.toList) = [step.annotation.toList] := by
  obtain ⟨before, after, hlines, hbefore, hafter⟩ := exists_lines_eq hread hline hname
  have hannotation : annotationsAmong [("    " ++ step.annotation).toList] =
      [step.annotation.toList] := by
    rw [annotationsAmong, List.map_singleton, trim_annotation]
    simp [Step.annotation]
  calc annotationsAmong ((lines step name).map String.toList)
      = annotationsAmong (before.map String.toList) ++
          annotationsAmong [("    " ++ step.annotation).toList] ++
          annotationsAmong (after.map String.toList) := by
        rw [hlines, List.map_append, List.map_cons, List.append_cons, annotationsAmong_append,
          annotationsAmong_append]
    _ = [] ++ [step.annotation.toList] ++ [] := by
        rw [annotationsAmong_of_isPlain hbefore, hannotation, annotationsAmong_of_isPlain hafter]
    _ = [step.annotation.toList] := rfl

/-! ### Rendering all steps -/

variable {registry : Registry} {steps : List Step} {method : Method}

theorem renderAll_cons (registry : Registry) (step : Step) (steps : List Step) :
    renderAll registry (step :: steps) =
      (render step registry).1 :: renderAll (render step registry).2 steps := rfl

theorem map_step_renderAll (registry : Registry) (steps : List Step) :
    (renderAll registry steps).map Method.step = steps := by
  induction steps generalizing registry with
  | nil => rfl
  | cons step steps ih =>
    rw [renderAll_cons, List.map_cons, ih]
    rfl

/-- The steps reserve the names that they spell, one after the other. -/
theorem map_name_renderAll (registry : Registry) (steps : List Step) :
    (renderAll registry steps).map Method.name =
      (registry.reserveAll (steps.map Step.methodName)).1 := by
  induction steps generalizing registry with
  | nil => rfl
  | cons step steps ih =>
    rw [renderAll_cons, List.map_cons, ih, List.map_cons, Registry.reserveAll]
    rfl

theorem nodup_names_renderAll (registry : Registry) (steps : List Step) :
    ((renderAll registry steps).map Method.name).Nodup := by
  rw [map_name_renderAll]
  exact registry.nodup_reserveAll _

theorem renderAll_append (registry : Registry) (steps others : List Step) :
    renderAll registry (steps ++ others) = renderAll registry steps ++
      renderAll (registry.reserveAll (steps.map Step.methodName)).2 others := by
  induction steps generalizing registry with
  | nil => rfl
  | cons step steps ih =>
    rw [List.cons_append, renderAll_cons, ih, renderAll_cons]
    rfl

theorem exists_eq_render (h : method ∈ renderAll registry steps) :
    ∃ earlier : Registry, method = (render method.step earlier).1 := by
  induction steps generalizing registry with
  | nil => exact absurd h (by simp [renderAll])
  | cons step steps ih =>
    rw [renderAll_cons, List.mem_cons] at h
    rcases h with rfl | h
    · exact ⟨registry, rfl⟩
    · exact ih h

theorem text_eq_of_mem_renderAll (h : method ∈ renderAll registry steps) :
    method.text = "\n".intercalate (lines method.step method.name) := by
  obtain ⟨earlier, heq⟩ := exists_eq_render h
  rw [heq]
  rfl

theorem oneLine_name_of_mem_renderAll (h : method ∈ renderAll registry steps)
    (hname : OneLine method.step.methodName) : OneLine method.name := by
  obtain ⟨earlier, heq⟩ := exists_eq_render h
  have hreserved : method.name = (earlier.reserve method.step.methodName).1 := by
    rw [heq]
    rfl
  rcases earlier.reserve_fst_eq method.step.methodName with hfree | ⟨k, hnumbered⟩
  · rwa [hreserved, hfree]
  · rw [hreserved, hnumbered, oneLine_append]
    exact ⟨hname, oneLine_toString k⟩

end Method

end StepGlue
