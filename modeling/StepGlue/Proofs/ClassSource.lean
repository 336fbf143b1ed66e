import StepGlue.ClassSource
import StepGlue.Proofs.Method.Rendered

/-!
# The lines of a class

The source of a class falls into the lines of its parts, and only the methods bring annotations
along.
-/

namespace StepGlue

open Text

namespace ClassSource

variable {methods : List Method}

/-! ### The text of a class -/

def methodLines (method : Method) : List String :=
  Method.lines method.step method.name ++ [""]

/-- Methods whose texts are rendered from steps that were read, with names on one line. -/
def AreRendered (methods : List Method) : Prop :=
  ∀ m ∈ methods, m.text = "\n".intercalate (Method.lines m.step m.name) ∧ m.step.IsRead ∧
    OneLine m.step.line ∧ OneLine m.name

theorem toList_text_append {method : Method}
    (h : method.text = "\n".intercalate (Method.lines method.step method.name)) :
    method.text.toList ++ ['\n', '\n'] = endedLines (methodLines method) := by
  have hne : Method.lines method.step method.name ≠ [] := by simp [Method.lines]
  rw [h, methodLines, endedLines_append, ← toList_intercalate_append hne]
  simp

theorem toList_body (h : AreRendered methods) :
    (body methods).toList = endedLines (methods.flatMap methodLines) := by
  rw [body]
  induction methods with
  | nil => rfl
  | cons method methods ih =>
    rw [AreRendered, List.forall_mem_cons] at h
    have hmethod := toList_text_append h.1.1
    rw [List.flatMap_cons, endedLines_append, ← ih h.2, ← hmethod]
    cases methods with
    | nil => simp
    | cons next methods => simp [String.intercalate_cons_cons]

theorem toList_lineText {lines : List String} (h : lines ≠ []) :
    (lineText lines).toList = endedLines lines := by
  rw [lineText, String.toList_append, ← toList_intercalate_append h]
  rfl

/-- A line feed within a line makes two lines of it. -/
theorem lineText_split (first second : String) {lines : List String} (h : lines ≠ []) :
    lineText ((first ++ "\n" ++ second) :: lines) = lineText (first :: second :: lines) := by
  obtain ⟨line, lines, rfl⟩ := List.exists_cons_of_ne_nil h
  simp only [lineText, String.intercalate_cons_cons, String.append_assoc]

theorem oneLine_of_mem_methodLines (h : AreRendered methods) :
    ∀ line ∈ methods.flatMap methodLines, OneLine line := by
  intro line hmem
  obtain ⟨method, hmethod, hline⟩ := List.mem_flatMap.mp hmem
  obtain ⟨-, hread, hstep, hname⟩ := h method hmethod
  rcases List.mem_append.mp hline with hline | hline
  · exact Method.oneLine_of_mem_lines hread hstep hname line hline
  · rw [List.mem_singleton.mp hline]
    exact isPlain_empty.oneLine

theorem annotationsAmong_methodLines (h : AreRendered methods) :
    annotationsAmong ((methods.flatMap methodLines).map String.toList) =
      methods.map fun m => m.step.annotation.toList := by
  induction methods with
  | nil => rfl
  | cons method methods ih =>
    rw [AreRendered, List.forall_mem_cons] at h
    obtain ⟨⟨-, hread, hstep, hname⟩, hrest⟩ := h
    have hblank := annotationsAmong_of_isPlain (List.forall_mem_singleton.mpr isPlain_empty)
    rw [List.flatMap_cons, methodLines, List.map_append, List.map_append, annotationsAmong_append,
      annotationsAmong_append, Method.annotationsAmong_lines hread hstep hname, hblank, ih hrest]
    rfl

/-- The text of a class falls into the lines of its parts. -/
theorem splitOn_text {header footer : List String} (h : AreRendered methods)
    (hheader : ∀ line ∈ header, IsPlain line) (hheaderNe : header ≠ [])
    (hfooter : ∀ line ∈ footer, IsPlain line) (hfooterNe : footer ≠ []) :
    splitOn '\n' (text ⟨lineText header, methods, lineText footer⟩).toList =
      (header ++ methods.flatMap methodLines ++ footer ++ [""]).map String.toList := by
  have htext : (text ⟨lineText header, methods, lineText footer⟩).toList =
      endedLines (header ++ methods.flatMap methodLines ++ footer) ++ [] := by
    rw [text, String.toList_append, String.toList_append, toList_lineText hheaderNe,
      toList_lineText hfooterNe, toList_body h, endedLines_append, endedLines_append,
      List.append_nil]
  have hlines : ∀ line ∈ header ++ methods.flatMap methodLines ++ footer, OneLine line := by
    rw [List.forall_mem_append, List.forall_mem_append]
    exact ⟨⟨fun line hmem => (hheader line hmem).oneLine, oneLine_of_mem_methodLines h⟩,
      fun line hmem => (hfooter line hmem).oneLine⟩
  rw [htext, splitOn_endedLines_append hlines]
  simp [splitOn]

/-- Only the methods bring annotations along. -/
theorem annotationsAmong_sourceLines {header footer : List String} (h : AreRendered methods)
    (hheader : ∀ line ∈ header, IsPlain line) (hfooter : ∀ line ∈ footer, IsPlain line) :
    annotationsAmong
        ((header ++ methods.flatMap methodLines ++ footer ++ [""]).map String.toList) =
      methods.map fun m => m.step.annotation.toList := by
  have hblank := annotationsAmong_of_isPlain (List.forall_mem_singleton.mpr isPlain_empty)
  calc annotationsAmong
        ((header ++ methods.flatMap methodLines ++ footer ++ [""]).map String.toList)
      = annotationsAmong (header.map String.toList) ++
          annotationsAmong ((methods.flatMap methodLines).map String.toList) ++
          annotationsAmong (footer.map String.toList) ++
          annotationsAmong ([""].map String.toList) := by
        simp only [List.map_append, annotationsAmong_append]
    _ = [] ++ methods.map (fun m => m.step.annotation.toList) ++ [] ++ [] := by
        rw [annotationsAmong_of_isPlain hheader, annotationsAmong_methodLines h,
          annotationsAmong_of_isPlain hfooter, hblank]
    _ = methods.map fun m => m.step.annotation.toList := by simp

end ClassSource

namespace ClassSource

/-- Names that stand on one line each. -/
structure Names.OnOneLine (names : Names) : Prop where
  package : ∀ package ∈ names.package, OneLine package
  imports : ∀ item ∈ names.imports, OneLine item
  base : ∀ base ∈ names.base, OneLine base
  className : OneLine names.className

theorem mem_of_addImports {merged result : List (ImportKey × Json)} {further : List Json}
    (h : addImports merged further = .ok result) :
    ∀ entry ∈ result, entry ∈ merged ∨ entry.2 ∈ further := by
  induction further generalizing merged with
  | nil =>
    obtain rfl := Except.ok.inj h
    exact fun _ hmem => .inl hmem
  | cons item rest ih =>
    obtain ⟨key, -, h⟩ := bind_eq_ok_iff.mp h
    intro entry hentry
    rcases ih h entry hentry with hmerged | hrest
    · split at hmerged
      · exact .inl hmerged
      · rcases List.mem_append.mp hmerged with hmerged | hnew
        · exact .inl hmerged
        · rw [List.mem_singleton.mp hnew]
          exact .inr List.mem_cons_self
    · exact .inr (List.mem_cons_of_mem _ hrest)

theorem exists_addImports {further : List Json} (merged : List (ImportKey × Json))
    (h : ∀ item ∈ further, ∃ key, importKey item = .ok key) :
    ∃ result, addImports merged further = .ok result := by
  induction further generalizing merged with
  | nil => exact ⟨merged, rfl⟩
  | cons item rest ih =>
    obtain ⟨⟨key, hkey⟩, hrest⟩ := List.forall_mem_cons.mp h
    obtain ⟨result, hresult⟩ := ih _ hrest
    exact ⟨result, bind_eq_ok_iff.mpr ⟨key, hkey, hresult⟩⟩

/-- What is merged are the default imports and the further ones. -/
theorem forall_mem_of_mergeImports {P : Json → Prop} {further imports : List Json}
    (h : mergeImports further = .ok imports) (hdefault : ∀ s ∈ defaultImports, P (.str s))
    (hfurther : ∀ item ∈ further, P item) : ∀ item ∈ imports, P item := by
  obtain ⟨result, hresult, himports⟩ := bind_eq_ok_iff.mp h
  obtain rfl := Except.ok.inj himports
  intro item hitem
  obtain ⟨entry, hentry, rfl⟩ := List.mem_map.mp hitem
  rcases mem_of_addImports hresult entry hentry with hmerged | hmem
  · obtain ⟨s, hs, rfl⟩ := List.mem_map.mp hmerged
    exact hdefault s hs
  · exact hfurther _ hmem

theorem oneLine_of_mem_defaultImports : ∀ s ∈ defaultImports, OneLine s := by
  simp only [defaultImports, List.forall_mem_cons, List.not_mem_nil, false_imp_iff, implies_true,
    and_true]
  and_intros
  all_goals exact oneLine_literal rfl

end ClassSource

/-- Whether the text of a value stands on one line. -/
def Json.ShowsOnOneLine [Machine] (v : Json) : Prop :=
  ∃ text, v.display = .ok text ∧ OneLine text

/-- A configuration whose names stand on one line each, with imports that can be told apart. -/
structure Config.NamesOnOneLine [Machine] (config : Config) : Prop where
  packageName : config.packageName.ShowsOnOneLine
  className : config.className.ShowsOnOneLine
  baseTestClass : ∀ base ∈ config.baseTestClass, base.ShowsOnOneLine
  imports : ∀ item ∈ config.imports,
    item.ShowsOnOneLine ∧ ∃ key, ClassSource.importKey item = .ok key

namespace ClassSource

variable {names : Names}

/-! ### Header and footer -/

section Names

variable [Machine] {config : Config}

theorem showsOnOneLine_str {s : String} (h : OneLine s) : (Json.str s).ShowsOnOneLine :=
  ⟨s, rfl, h⟩

theorem exists_mapM_display {items : List Json} (h : ∀ item ∈ items, item.ShowsOnOneLine) :
    ∃ texts, items.mapM Json.display = .ok texts ∧ ∀ text ∈ texts, OneLine text := by
  induction items with
  | nil => exact ⟨[], rfl, List.forall_mem_nil _⟩
  | cons item items ih =>
    obtain ⟨⟨text, htext, hline⟩, hrest⟩ := List.forall_mem_cons.mp h
    obtain ⟨texts, htexts, hlines⟩ := ih hrest
    exact ⟨text :: texts, by rw [List.mapM_cons, htext, htexts]; rfl,
      List.forall_mem_cons.mpr ⟨hline, hlines⟩⟩

theorem exists_mergeImports (hconfig : config.NamesOnOneLine) :
    ∃ imports, mergeImports config.imports = .ok imports ∧
      ∀ item ∈ imports, item.ShowsOnOneLine := by
  obtain ⟨result, hresult⟩ := exists_addImports (defaultImports.map fun s => (.name s, .str s))
    fun item hitem => (hconfig.imports item hitem).2
  have himports : mergeImports config.imports = .ok (result.map (·.2)) :=
    bind_eq_ok_iff.mpr ⟨result, hresult, rfl⟩
  exact ⟨_, himports, forall_mem_of_mergeImports himports
    (fun s hs => showsOnOneLine_str (oneLine_of_mem_defaultImports s hs))
    fun item hitem => (hconfig.imports item hitem).1⟩

/-- The names of such a configuration can be shown. -/
theorem exists_names (hconfig : config.NamesOnOneLine) :
    ∃ names, Names.ofConfig config = .ok names ∧ names.OnOneLine := by
  obtain ⟨package, hpackage, hpackageLine⟩ := hconfig.packageName
  obtain ⟨className, hclass, hclassLine⟩ := hconfig.className
  obtain ⟨imports, himports, himportsShow⟩ := exists_mergeImports hconfig
  obtain ⟨texts, htexts, htextsLine⟩ := exists_mapM_display himportsShow
  obtain ⟨base, hbase, hbaseLine⟩ : ∃ base, config.baseTestClass.mapM Json.display = .ok base ∧
      ∀ text ∈ base, OneLine text := by
    cases hbase : config.baseTestClass with
    | none => exact ⟨none, rfl, nofun⟩
    | some v =>
      obtain ⟨text, htext, hline⟩ := hconfig.baseTestClass v hbase
      exact ⟨some text, by rw [Option.mapM_some, htext]; rfl, fun _ h => Option.some.inj h ▸ hline⟩
  refine ⟨{ package := if config.packageName.isGiven then some package else none,
            imports := texts, base, className }, ?_, ?_⟩
  · have hshown : Names.packageOf config.packageName =
        .ok (if config.packageName.isGiven then some package else none) := by
      rw [Names.packageOf, hpackage]
      split <;> rfl
    rw [Names.ofConfig, hshown, himports, hclass, hbase]
    simp only [bind, Except.bind, htexts]
    rfl
  · refine ⟨fun text htext => ?_, htextsLine, hbaseLine, hclassLine⟩
    dsimp only at htext
    split at htext
    · exact Option.some.inj htext ▸ hpackageLine
    · cases htext

end Names

theorem isPlain_of_mem_headerLines (hnames : names.OnOneLine) :
    ∀ line ∈ headerLines names, IsPlain line := by
  have hpackage : ∀ package, names.package = some package →
      ∀ line ∈ ["package " ++ package ++ ";", ""], IsPlain line := by
    intro package hsome
    rw [String.append_assoc, List.forall_mem_cons, List.forall_mem_singleton]
    refine ⟨IsPlain.append rfl ?_, isPlain_empty⟩
    exact oneLine_append.mpr ⟨hnames.package package hsome, oneLine_literal rfl⟩
  have himport : ∀ item ∈ names.imports, IsPlain ("import " ++ item ++ ";") := by
    intro item hitem
    rw [String.append_assoc]
    apply IsPlain.append rfl
    exact oneLine_append.mpr ⟨hnames.imports item hitem, oneLine_literal rfl⟩
  have hclass : ∀ base, OneLine base →
      IsPlain ("public class " ++ names.className ++ base ++ " \x7b") := by
    intro base hbase
    rw [String.append_assoc, String.append_assoc]
    apply IsPlain.append rfl
    rw [oneLine_append, oneLine_append]
    exact ⟨hnames.className, hbase, oneLine_literal rfl⟩
  have hconstructor : IsPlain ("    public " ++ names.className ++ "() \x7b") := by
    rw [String.append_assoc]
    apply IsPlain.append rfl
    exact oneLine_append.mpr ⟨hnames.className, oneLine_literal rfl⟩
  simp only [headerLines, List.forall_mem_append, List.forall_mem_cons, List.forall_mem_map,
    List.not_mem_nil, false_imp_iff, implies_true, isPlain_empty, true_and, and_true]
  refine ⟨⟨?_, himport⟩, ?_⟩
  · cases hsome : names.package with
    | none => exact List.forall_mem_nil _
    | some package => exact hpackage package hsome
  and_intros
  all_goals try first | exact hconstructor | exact IsPlain.literal rfl
  apply hclass
  cases hbase : names.base with
  | none => exact List.not_mem_nil
  | some base => exact oneLine_append.mpr ⟨oneLine_literal rfl, hnames.base base hbase⟩

theorem isPlain_of_mem_footerLines : ∀ line ∈ footerLines, IsPlain line := by
  simp only [footerLines, List.forall_mem_cons, List.not_mem_nil, false_imp_iff, implies_true,
    isPlain_empty, true_and, and_true]
  and_intros
  all_goals exact IsPlain.literal rfl

def sourceLines (names : Names) (methods : List Method) : List String :=
  headerLines names ++ methods.flatMap methodLines ++ footerLines ++ [""]

/-- A class can be assembled around any rendered methods, and its annotations are theirs. -/
theorem exists_assemble [Machine] {config : Config} (hconfig : config.NamesOnOneLine)
    {methods : List Method} (h : AreRendered methods) :
    ∃ names source, Names.ofConfig config = .ok names ∧
      assemble config methods = .ok source ∧
      splitOn '\n' source.text.toList = (sourceLines names methods).map String.toList ∧
      annotationsAmong (splitOn '\n' source.text.toList) =
        methods.map fun m => m.step.annotation.toList := by
  obtain ⟨names, hnames, hlines⟩ := exists_names hconfig
  have hheader := isPlain_of_mem_headerLines hlines
  have htext :=
    splitOn_text h hheader (by simp [headerLines]) isPlain_of_mem_footerLines (by decide)
  refine ⟨names, _, hnames, by rw [assemble, hnames]; rfl, htext, ?_⟩
  rw [htext]
  exact annotationsAmong_sourceLines h hheader isPlain_of_mem_footerLines

theorem exists_sourceLines_eq (names : Names) (methods : List Method) :
    ∃ before name after,
    sourceLines names methods =
      before ++ ("public class " ++ name ++ " \x7b") :: "" :: "    private WebDriver driver;" ::
        after := by
  obtain ⟨start, fixed, base, tail, hheader⟩ : ∃ start fixed base tail,
      headerLines names = start ++ (fixed ++
        ("public class " ++ names.className ++ base ++ " \x7b") :: "" ::
          "    private WebDriver driver;" :: tail) :=
    ⟨_, [_, _, _, _, _, _, _, _], _, _, rfl⟩
  refine ⟨start ++ fixed, names.className ++ base, tail ++ methods.flatMap methodLines ++
    footerLines ++ [""], ?_⟩
  rw [sourceLines, hheader]
  simp [String.append_assoc]

/-- The fields of a class stand above the margin. -/
theorem exists_one_le_of_sourceLines {code : String} {methods : List Method}
    (h : splitOn '\n' code.toList = (sourceLines names methods).map String.toList) :
    ∃ level ∈ Indentation.levelsOf code, 1 ≤ level := by
  obtain ⟨before, name, after, hlines⟩ := exists_sourceLines_eq names methods
  have hclass : trim ("public class " ++ name ++ " \x7b").toList =
      'p' :: ("ublic class ".toList ++ name.toList ++ [' '] ++ ['{']) := by
    rw [← trim_of_ends (by decide) (by decide)]
    simp
  have hfield : trim "    private WebDriver driver;".toList =
      'p' :: ("rivate WebDriver driver".toList ++ [';']) := by
    decide +kernel
  obtain ⟨place, hplace, hlevel⟩ : ∃ place ∈ Indentation.levels 0 (before.map String.toList ++
      ("public class " ++ name ++ " \x7b").toList :: [] ::
        "    private WebDriver driver;".toList :: after.map String.toList), 1 ≤ place.1 := by
    apply Indentation.exists_one_le_of_opens
    · rw [hclass, Indentation.opens, ← List.cons_append, List.getLast?_concat]
      rfl
    · rw [hclass]
      rfl
    · rw [hfield]
      exact List.cons_ne_nil _ _
    · rw [hfield]
      rfl
  refine ⟨place.1, ?_, hlevel⟩
  rw [Indentation.levelsOf, h, hlines, List.map_append]
  exact List.mem_map.mpr ⟨place, hplace, rfl⟩

end ClassSource

end StepGlue
