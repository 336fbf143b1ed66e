import StepGlue.Proofs.Layout
import StepGlue.Proofs.Method.Rendered
import StepGlue.Proofs.Step.Line

/-!
# Methods at their levels

The lines of a method open and close their blocks at fixed places. Texts of a step stand inside of
lines or behind the start of one, so they raise no level unless a text ends with an opening brace.
-/

namespace StepGlue

open Indentation Text

namespace Step

/-- Neither the text of a step nor the name of a placeholder ends with an opening brace. -/
structure OpensNothing (step : Step) : Prop where
  text : step.text.toList.getLast? ≠ some '{'
  names : ∀ p ∈ step.parameters, p.kind = .placeholder → p.name.toList.getLast? ≠ some '{'

instance (step : Step) : Decidable step.OpensNothing :=
  decidable_of_iff (step.text.toList.getLast? ≠ some '{' ∧
      ∀ p ∈ step.parameters, p.kind = .placeholder → p.name.toList.getLast? ≠ some '{')
    ⟨fun h => ⟨h.1, h.2⟩, fun h => ⟨h.text, h.names⟩⟩

/-- A step as read whose line, text and declarations end with neither a blank nor an opening
brace. -/
structure EndsPlain (step : Step) : Prop extends step.IsRead where
  line : endsPlain step.line
  text : endsPlain step.text
  declarations : ∀ d ∈ step.declarations, endsPlain d

variable {step : Step}

theorem OpensNothing.endsPlain_name (h : step.OpensNothing) (hread : step.IsRead) {p : Parameter}
    (hp : p ∈ step.parameters) : Indentation.endsPlain p.name := by
  have hmem := hp
  rw [hread.parameters_eq] at hmem
  obtain ⟨ordinal, value, hname⟩ := Segment.exists_slotName_eq_of_mem_parametersAfter hmem
  obtain ⟨c, hlast, hblank, hdigit⟩ := Segment.exists_getLast?_slotName p.kind ordinal value
  refine endsPlain_iff.mpr ⟨c, hname ▸ hlast, hblank, ?_⟩
  rintro rfl
  -- only a placeholder can spell a brace, the other names end with a digit
  by_cases hkind : p.kind = .placeholder
  · exact h.names p hp hkind (hname ▸ hlast)
  · exact absurd (hdigit hkind) (by decide)

theorem OpensNothing.endsPlain {line : String} (h : step.OpensNothing)
    (hparse : parse? line = some step) : step.EndsPlain := by
  have hread := isRead_of_parse? hparse
  obtain ⟨keyword, text, hsplit, -, rfl⟩ := parse?_eq_some_iff.mp hparse
  obtain ⟨c, htext, hline, hblank⟩ := Keyword.exists_getLast?_of_split? (trim_trim _) hsplit
  have hne : c ≠ '{' := by
    rintro rfl
    exact h.text (by rw [ofText, String.toList_ofList, htext])
  refine ⟨hread, ?_, ?_, ?_⟩
  · exact endsPlain_iff.mpr ⟨c, by rw [ofText, String.toList_ofList, hline], hblank, hne⟩
  · exact endsPlain_iff.mpr ⟨c, by rw [ofText, String.toList_ofList, htext], hblank, hne⟩
  · intro d hd
    obtain ⟨p, hp, rfl⟩ := List.mem_map.mp hd
    exact endsPlain_append (h.endsPlain_name hread hp)

end Step

namespace Method

/-- The comment of a method without the blanks at the ends of its lines. -/
def trimmedComment (step : Step) : List String :=
  ["/**", "* Step: " ++ step.line] ++
    (if step.parameters.isEmpty then []
      else ["* Parameters: " ++ toString step.parameters.length]) ++
    ["*/"]

/-- The lines of a method without the blanks at their ends, each with its level in a class. -/
def layout (m : Method) : List (Nat × String) :=
  atLevel 1 (trimmedComment m.step) ++
    atLevel 1 [ m.step.annotation,
      "public void " ++ m.name ++ "(" ++ ", ".intercalate m.step.declarations ++ ") \x7b" ] ++
    atLevel 2 ["try \x7b"] ++
    atLevel 3 (notes m.step) ++
    atLevel 2 ["\x7d catch (Exception e) \x7b"] ++
    atLevel 3 ["throw new RuntimeException(" ++ stringLiteral (failureMessage m.step) ++ ", e);"] ++
    atLevel 2 ["\x7d"] ++
    atLevel 1 ["\x7d"]

variable {step : Step} {m : Method}

theorem isTrimmed_annotatedLine (step : Step) :
    IsTrimmed false ("    " ++ step.annotation) step.annotation where
  trim_eq := trim_annotation step
  closes_eq := by simp [Step.annotation, closes]
  opens_eq := by
    rw [Step.annotation]
    exact opens_eq_false_of_endsPlain (endsPlain_append (endsPlain_literal rfl))

theorem isTrimmed_comment (h : step.EndsPlain) :
    List.Forall₂ (IsTrimmed false) (comment step) (trimmedComment step) := by
  have hopen : IsTrimmed false "    /**" "/**" := .of_chars rfl rfl rfl
  have hline : IsTrimmed false ("     * Step: " ++ step.line) ("* Step: " ++ step.line) :=
    .of_endsPlain h.line rfl rfl
  have hcount : IsTrimmed false ("     * Parameters: " ++ toString step.parameters.length)
      ("* Parameters: " ++ toString step.parameters.length) := by
    obtain ⟨c, hlast, hdigit⟩ := exists_getLast?_toString step.parameters.length
    refine .of_endsPlain (endsPlain_iff.mpr ⟨c, hlast, not_isBlank_of_isDigit hdigit, ?_⟩) rfl rfl
    rintro rfl
    exact absurd hdigit (by decide)
  have hclose : IsTrimmed false "     */" "*/" := .of_chars rfl rfl rfl
  rw [comment, trimmedComment]
  by_cases hnone : step.parameters.isEmpty
  · rw [if_pos hnone, if_pos hnone]
    exact .cons hopen (.cons hline (.cons hclose .nil))
  · rw [if_neg hnone, if_neg hnone]
    exact .cons hopen (.cons hline (.cons hcount (.cons hclose .nil)))

theorem isTrimmed_noteLine {note : String} (hnote : IsNote note)
    (hend : note = "" ∨ endsPlain note) : IsTrimmed false (noteLine note) note := by
  by_cases hempty : note = ""
  · subst hempty
    exact .of_chars rfl rfl rfl
  · obtain ⟨-, rest, hrest⟩ := hnote.resolve_left hempty
    obtain ⟨c, hlast, hblank, hne⟩ := endsPlain_iff.mp (hend.resolve_left hempty)
    have hspaces : "            ".toList.all isBlank := by decide +kernel
    have hright : trimRight note.toList = note.toList := by
      refine trimRight_eq_self fun b hb => ?_
      rw [hlast, Option.mem_def, Option.some.injEq] at hb
      exact hb ▸ hblank
    have hleft : trimLeft note.toList = note.toList := by
      rw [← hrest]
      rfl
    constructor
    · rw [noteLine, if_neg hempty, String.toList_append, trim, trimLeft_append_of_blank hspaces,
        hleft, hright]
    · rw [← hrest]
      rfl
    · exact opens_eq_false_of_endsPlain (hend.resolve_left hempty)

theorem isTrimmed_notes (h : step.EndsPlain) :
    List.Forall₂ (IsTrimmed false) ((notes step).map noteLine) (notes step) := by
  have hparameters : ∀ note ∈ (if step.parameters.isEmpty then []
      else "// Available parameters:" :: step.declarations.map ("//   " ++ ·)),
      note = "" ∨ endsPlain note := by
    split
    · exact List.forall_mem_nil _
    · rw [List.forall_mem_cons, List.forall_mem_map]
      refine ⟨.inr (endsPlain_literal rfl), fun d hd => ?_⟩
      exact .inr (endsPlain_append (h.declarations d hd))
  have hend : ∀ note ∈ notes step, note = "" ∨ endsPlain note := by
    simp only [notes, List.forall_mem_append, List.forall_mem_cons]
    exact ⟨⟨⟨⟨.inr (endsPlain_append h.text), List.forall_mem_nil _⟩, hparameters⟩,
        fun note hnote => .inr (Hint.isNote_and_endsPlain_of_mem_lines hnote).2⟩,
      .inl trivial, .inr (endsPlain_literal rfl), .inr (endsPlain_literal rfl), .inl trivial,
      List.forall_mem_nil _⟩
  rw [List.forall₂_map_left_iff, List.forall₂_same]
  intro note hnote
  exact isTrimmed_noteLine (isNote_of_mem_notes h.toIsRead note hnote) (hend note hnote)

/-- A method stands one level inside of its class and leaves that level behind. -/
theorem laysOut_lines (h : m.step.EndsPlain) : LaysOut 1 (lines m.step m.name) m.layout 1 := by
  have hsignature : IsTrimmed true
      ("    public void " ++ m.name ++ "(" ++ ", ".intercalate m.step.declarations ++ ") \x7b")
      ("public void " ++ m.name ++ "(" ++ ", ".intercalate m.step.declarations ++ ") \x7b") := by
    have hlast : ") \x7b".toList.getLast? = some '\x7b' := getLast?_literal rfl
    simp only [String.append_assoc]
    exact .append (getLast?_toList_append (getLast?_toList_append (getLast?_toList_append hlast)))
      (by decide) rfl rfl
  have hthrow : IsTrimmed false
      ("            throw new RuntimeException(" ++ stringLiteral (failureMessage m.step) ++
        ", e);")
      ("throw new RuntimeException(" ++ stringLiteral (failureMessage m.step) ++ ", e);") := by
    simp only [String.append_assoc]
    exact .of_endsPlain (endsPlain_append (endsPlain_literal rfl)) rfl rfl
  rw [layout, lines]
  simp only [List.append_assoc, List.cons_append, List.nil_append]
  refine LaysOut.append (.of_forall₂ (isTrimmed_comment h)) ?_
  refine .cons false (isTrimmed_annotatedLine m.step) (.cons true hsignature ?_)
  refine .cons true (.of_chars rfl rfl rfl) ?_
  refine LaysOut.append (.of_forall₂ (isTrimmed_notes h)) ?_
  refine .cons_closing true rfl rfl rfl (.cons false hthrow ?_)
  exact .cons_closing false rfl rfl rfl (.cons_closing false rfl rfl rfl (.nil 1))

end Method

end StepGlue
