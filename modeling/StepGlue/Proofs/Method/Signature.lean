import StepGlue.Proofs.Method.Rendered
import StepGlue.Proofs.Step.NamesApart
import StepGlue.Proofs.Step.Naming

/-!
# The names in a signature

A signature is read word by word: names have no blanks, so every second word is a name, with a comma
behind all but the last one.
-/

namespace StepGlue

open Text

/-- The names among the words of declarations. -/
def namesAmong : List (List Char) → List (List Char)
  | _ :: [name] => [name]
  | _ :: name :: rest => name.dropLast :: namesAmong rest
  | _ => []

/-- The names that the text between the parentheses of a signature declares. -/
def declaredNames (arguments : String) : List String :=
  (namesAmong (words arguments.toList)).map String.ofList

theorem namesAmong_cons_cons {first name : List Char} {rest : List (List Char)} (h : rest ≠ []) :
    namesAmong (first :: name :: rest) = name.dropLast :: namesAmong rest := by
  rw [namesAmong]
  exact fun hnil => h hnil

namespace Parameter

/-- A name that can be read in a list of declarations. -/
structure IsWord (name : String) : Prop where
  ne_empty : name ≠ ""
  not_isBlank : ∀ c ∈ name.toList, ¬isBlank c

variable {p : Parameter} {ps : List Parameter}

theorem words_declaration_append (hword : IsWord p.name) {more : List Char}
    (hmore : ∀ c ∈ more, ¬isBlank c) :
    words (p.declaration.toList ++ more) = [p.kind.typeName.toList, p.name.toList ++ more] := by
  have htype : p.kind.typeName.toList.all (!isBlank ·) ∧ p.kind.typeName.toList ≠ [] := by
    cases p.kind <;> decide +kernel
  have htypeChars : ∀ c ∈ p.kind.typeName.toList, ¬isBlank c :=
    fun c hc => by simpa using List.all_eq_true.mp htype.1 c hc
  have hname : (∀ c ∈ p.name.toList ++ more, ¬isBlank c) ∧ p.name.toList ++ more ≠ [] := by
    rw [List.forall_mem_append]
    refine ⟨⟨hword.not_isBlank, hmore⟩, List.append_ne_nil_of_left_ne_nil ?_ more⟩
    exact fun hnil => hword.ne_empty (String.toList_eq_nil_iff.mp hnil)
  have hchars : p.declaration.toList ++ more =
      p.kind.typeName.toList ++ ' ' :: (p.name.toList ++ more) := by
    simp [declaration]
  rw [hchars, words_append_cons_of_blank (by decide), words_of_no_blank htypeChars htype.2,
    words_of_no_blank hname.1 hname.2, List.singleton_append]

theorem namesAmong_declarations (hwords : ∀ p ∈ ps, IsWord p.name) :
    namesAmong (words (", ".intercalate (ps.map declaration)).toList) =
      ps.map fun p => p.name.toList := by
  induction ps with
  | nil => rfl
  | cons p ps ih =>
    rw [List.forall_mem_cons] at hwords
    cases ps with
    | nil =>
      have hdeclared := words_declaration_append hwords.1 (List.forall_mem_nil _)
      rw [List.append_nil, List.append_nil] at hdeclared
      rw [List.map_singleton, String.intercalate_singleton, hdeclared]
      rfl
    | cons next ps =>
      have hrest := ih hwords.2
      -- More words follow, so the name here has a comma behind it.
      have hne : words (", ".intercalate ((next :: ps).map declaration)).toList ≠ [] := by
        intro hnil
        rw [hnil] at hrest
        exact absurd hrest (by simp [namesAmong])
      have hchars : (", ".intercalate ((p :: next :: ps).map declaration)).toList =
          (p.declaration.toList ++ [',']) ++
            ' ' :: (", ".intercalate ((next :: ps).map declaration)).toList := by
        simp [String.intercalate_cons_cons]
      have hcomma : ∀ c ∈ [','], ¬isBlank c := List.forall_mem_singleton.mpr (by decide)
      rw [hchars, words_append_cons_of_blank (by decide),
        words_declaration_append hwords.1 hcomma, List.cons_append, List.singleton_append,
        namesAmong_cons_cons hne, List.dropLast_concat, hrest]
      rfl

theorem declaredNames_declarations (hwords : ∀ p ∈ ps, IsWord p.name) :
    declaredNames (", ".intercalate (ps.map declaration)) = ps.map name := by
  rw [declaredNames, namesAmong_declarations hwords, List.map_map]
  exact List.map_congr_left fun p _ => String.ofList_toList

/-- Parameters of different kinds have different names. -/
def KindsApart (ps : List Parameter) : Prop :=
  ∀ p ∈ ps, ∀ q ∈ ps, p.kind ≠ q.kind → p.name ≠ q.name

instance : DecidablePred KindsApart :=
  fun ps => inferInstanceAs (Decidable (∀ p ∈ ps, ∀ q ∈ ps, p.kind ≠ q.kind → p.name ≠ q.name))

theorem KindsApart.nodup_iff (h : KindsApart ps) : (ps.map name).Nodup ↔ NamesApart ps := by
  rw [List.Nodup, List.pairwise_map, NamesApart]
  constructor
  · exact fun hne => hne.imp fun {p q} hpq (_ : p.kind = q.kind) => hpq
  · intro hne
    refine hne.imp_of_mem fun {p q} hp hq hsame => ?_
    by_cases hkind : p.kind = q.kind
    · exact hsame hkind
    · exact h p hp q hq hkind

end Parameter

namespace Step.IsRead

variable {step : Step}

theorem isWord_name (h : step.IsRead) : ∀ p ∈ step.parameters, Parameter.IsWord p.name := by
  intro p hp
  rw [h.parameters_eq] at hp
  obtain ⟨earlier, later, hsplit⟩ := List.append_of_mem hp
  have hnamed := Segment.isNamed_of_parametersAfter_eq hsplit
  exact ⟨hnamed.ne_empty, hnamed.not_isBlank⟩

end Step.IsRead

namespace Method

/-- The line of a method that declares its name and parameters. -/
def signatureLine (name arguments : String) : String :=
  "    public void " ++ name ++ "(" ++ arguments ++ ") \x7b"

theorem exists_lines_eq_signature (step : Step) (name : String) :
    ∃ lower, lines step name = (comment step ++ ["    " ++ step.annotation]) ++
      signatureLine name (", ".intercalate step.declarations) :: lower := by
  refine ⟨(lines step name).drop ((comment step).length + 2), ?_⟩
  unfold signatureLine
  simp only [lines, List.append_assoc, List.cons_append, List.nil_append,
    List.drop_length_add_append, List.drop_succ_cons, List.drop_zero]

/-- **When a signature declares a name twice.** The parameters of each kind have different names if
and only if no placeholder gives a name that another one gives. The signature of a method, which is
the line after its annotation, declares the names of the parameters in order, so unless kinds clash
it declares no name twice in just the same case. -/
theorem namesApart_iff_spellsApart {line : String} {step : Step} (h : Step.parse? line = some step)
    (registry : Registry) :
    (Parameter.NamesApart step.parameters ↔
      Segment.SpellsApart (Parameter.valuesOf .placeholder step.parameters)) ∧
    ∃ (upper : List String) (arguments : String) (lower : List String),
      upper.getLast? = some ("    " ++ step.annotation) ∧
      (render step registry).1.text = "\n".intercalate
        (upper ++ signatureLine (render step registry).1.name arguments :: lower) ∧
      declaredNames arguments = step.parameters.map Parameter.name ∧
      (Parameter.KindsApart step.parameters → ((declaredNames arguments).Nodup ↔
        Segment.SpellsApart (Parameter.valuesOf .placeholder step.parameters))) := by
  have hread := Step.isRead_of_parse? h
  have hnames : Parameter.NamesApart step.parameters ↔
      Segment.SpellsApart (Parameter.valuesOf .placeholder step.parameters) := by
    rw [hread.parameters_eq]
    exact Segment.namesApart_parameters_iff step.segments
  have hdeclared : declaredNames (", ".intercalate step.declarations) =
      step.parameters.map Parameter.name :=
    Parameter.declaredNames_declarations hread.isWord_name
  obtain ⟨lower, hlines⟩ := exists_lines_eq_signature step (render step registry).1.name
  have htext : (render step registry).1.text =
      "\n".intercalate (lines step (render step registry).1.name) :=
    rfl
  refine ⟨hnames, comment step ++ ["    " ++ step.annotation],
    ", ".intercalate step.declarations, lower, List.getLast?_concat, by rw [htext, hlines],
    hdeclared, fun hkinds => ?_⟩
  rw [hdeclared, hkinds.nodup_iff, hnames]

/-- A placeholder that spells nothing comes second, so what the first one spells stays free. -/
theorem namesApart_iff_spellsApart_of_near_clash : ∃ step arguments,
    Step.parse? "When I type <arg1>, <> and <Arg 1> or \"x\" 5" = some step ∧
    Parameter.NamesApart step.parameters ∧
    declaredNames arguments = ["arg1", "arg2", "arg_1", "param1", "number1"] ∧
    (declaredNames arguments).Nodup := by
  have hparsed : (Step.parse? "When I type <arg1>, <> and <Arg 1> or \"x\" 5").map
      Step.parameters = some [⟨.placeholder, "arg1", "arg1"⟩, ⟨.placeholder, "arg2", ""⟩,
        ⟨.placeholder, "arg_1", "Arg 1"⟩, ⟨.quoted, "param1", "x"⟩, ⟨.number, "number1", "5"⟩] := by
    decide +kernel
  obtain ⟨step, hstep, hparameters⟩ := Option.map_eq_some_iff.mp hparsed
  obtain ⟨hnames, -, arguments, -, -, -, hdeclared, hnodup⟩ :=
    namesApart_iff_spellsApart hstep .empty
  have hspells : Segment.SpellsApart (Parameter.valuesOf .placeholder step.parameters) := by
    rw [hparameters]
    decide +kernel
  have hkinds : Parameter.KindsApart step.parameters := by
    rw [hparameters]
    decide +kernel
  exact ⟨step, arguments, hstep, hnames.mpr hspells, by rw [hdeclared, hparameters]; rfl,
    (hnodup hkinds).mpr hspells⟩

/-- Two placeholders that spell the same name. -/
theorem not_namesApart_of_repeated_placeholder : ∃ step,
    Step.parse? "Given <a> and <a>" = some step ∧ step.declarations = ["String a", "String a"] ∧
    Parameter.KindsApart step.parameters ∧ ¬Parameter.NamesApart step.parameters := by
  have hparsed : (Step.parse? "Given <a> and <a>").map Step.parameters =
      some [⟨.placeholder, "a", "a"⟩, ⟨.placeholder, "a", "a"⟩] := by
    decide +kernel
  obtain ⟨step, hstep, hparameters⟩ := Option.map_eq_some_iff.mp hparsed
  refine ⟨step, hstep, ?_, ?_, ?_⟩
  · rw [Step.declarations, hparameters]
    rfl
  · rw [hparameters]
    decide +kernel
  · rw [hparameters]
    decide +kernel

end Method

end StepGlue
