import StepGlue.Proofs.Generation
import StepGlue.Proofs.Method.Layout

/-!
# The class at its levels

Header, methods and footer are laid out one after the other, and every method leaves the level
behind that it found. So each line of the formatted class stands at a level that its own part alone
decides, and no step moves a line of another one.
-/

namespace StepGlue

open Indentation Text

namespace ClassSource

/-- The comment of a class, after a blank line. -/
def classComment : List String :=
  [ "",
    "/**",
    "* Cucumber Step Definitions",
    "* Generated by step-definition-service",
    "*",
    "* This class contains step definitions for Cucumber scenarios.",
    "* Each method represents a step that can be used in feature files.",
    "*/" ]

def fields : List String :=
  ["", "private WebDriver driver;", "private WebDriverWait wait;", ""]

def constructorNotes : List String :=
  [ "// Initialize WebDriver and WebDriverWait if needed",
    "// this.driver = DriverManager.getDriver();",
    "// this.wait = new WebDriverWait(driver, Duration.ofSeconds(10));" ]

def packageLines (names : Names) : List String :=
  match names.package with
  | some package => ["package " ++ package ++ ";", ""]
  | none => []

def importLine (item : String) : String :=
  "import " ++ item ++ ";"

def extendsClause (names : Names) : String :=
  match names.base with
  | some base => " extends " ++ base
  | none => ""

def classLine (names : Names) : String :=
  "public class " ++ names.className ++ extendsClause names ++ " \x7b"

def constructorLine (names : Names) : String :=
  "public " ++ names.className ++ "() \x7b"

/-- The lines of a header without the blanks at their ends, each with its level. -/
def headerLayout (names : Names) : List (Nat × String) :=
  atLevel 0 (packageLines names ++ names.imports.map importLine) ++
    atLevel 0 classComment ++
    atLevel 0 [classLine names] ++
    atLevel 1 fields ++
    atLevel 1 [constructorLine names] ++
    atLevel 2 constructorNotes ++
    atLevel 1 ["\x7d", ""]

def footerLayout : List (Nat × String) :=
  atLevel 1 [ "/**",
      "* Helper method to find element with wait",
      "*/",
      "private WebElement findElementWithWait(By locator) \x7b" ] ++
    atLevel 2 ["return wait.until(driver -> driver.findElement(locator));"] ++
    atLevel 1 [ "\x7d",
      "",
      "/**",
      "* Helper method to verify element is displayed",
      "*/",
      "private boolean isElementDisplayed(By locator) \x7b" ] ++
    atLevel 2 ["try \x7b"] ++
    atLevel 3 ["return driver.findElement(locator).isDisplayed();"] ++
    atLevel 2 ["\x7d catch (Exception e) \x7b"] ++
    atLevel 3 ["return false;"] ++
    atLevel 2 ["\x7d"] ++
    atLevel 1 ["\x7d"] ++
    atLevel 0 ["\x7d"]

/-- The lines of a class, each with its level: a header, the methods with a blank line after each,
and a footer, whose last line is ended by a line feed. -/
def layout (names : Names) (methods : List Method) : List (Nat × String) :=
  headerLayout names ++ methods.flatMap (fun m => m.layout ++ atLevel 1 [""]) ++
    footerLayout ++ atLevel 0 [""]

variable {names : Names} {methods : List Method}

theorem isTrimmed_imports (names : Names) :
    List.Forall₂ (IsTrimmed false) (packageLines names ++ names.imports.map importLine)
      (packageLines names ++ names.imports.map importLine) := by
  have hsemicolon : endsPlain ";" := endsPlain_literal rfl
  rw [List.forall₂_same, List.forall_mem_append, List.forall_mem_map]
  constructor
  · rw [packageLines]
    split
    · rw [String.append_assoc, List.forall_mem_cons, List.forall_mem_singleton]
      exact ⟨.of_endsPlain (endsPlain_append hsemicolon) rfl rfl, .of_chars rfl rfl rfl⟩
    · exact List.forall_mem_nil _
  · intro item _
    rw [importLine, String.append_assoc]
    exact .of_endsPlain (endsPlain_append hsemicolon) rfl rfl

theorem isTrimmed_classLine (names : Names) :
    IsTrimmed true (classLine names) (classLine names) := by
  have hlast : " \x7b".toList.getLast? = some '\x7b' := getLast?_literal rfl
  have hline : classLine names =
      "public class " ++ (names.className ++ (extendsClause names ++ " \x7b")) := by
    rw [← String.append_assoc, ← String.append_assoc]
    rfl
  rw [hline]
  exact .append (getLast?_toList_append (getLast?_toList_append hlast)) (by decide) rfl rfl

theorem isTrimmed_constructorLine (names : Names) :
    IsTrimmed true ("    public " ++ names.className ++ "() \x7b") (constructorLine names) := by
  have hlast : "() \x7b".toList.getLast? = some '\x7b' := getLast?_literal rfl
  rw [constructorLine, String.append_assoc, String.append_assoc]
  exact .append (getLast?_toList_append hlast) (by decide) rfl rfl

/-- A header leaves the level of the methods behind. -/
theorem laysOut_headerLines (names : Names) :
    LaysOut 0 (headerLines names) (headerLayout names) 1 := by
  rw [headerLayout]
  simp only [List.append_assoc]
  refine LaysOut.append (.of_forall₂ (isTrimmed_imports names)) ?_
  -- the lines between those that open or close a block are all fixed
  repeat refine .cons false (.of_chars rfl rfl rfl) ?_
  refine .cons true (isTrimmed_classLine names) ?_
  repeat refine .cons false (.of_chars rfl rfl rfl) ?_
  refine .cons true (isTrimmed_constructorLine names) ?_
  repeat refine .cons false (.of_chars rfl rfl rfl) ?_
  refine .cons_closing false rfl rfl rfl ?_
  exact .cons false (.of_chars rfl rfl rfl) (.nil 1)

/-- A footer closes what the header has opened. -/
theorem laysOut_footerLines : LaysOut 1 footerLines footerLayout 0 := by
  repeat first
    | refine .cons false (.of_chars rfl rfl rfl) ?_
    | refine .cons true (.of_chars rfl rfl rfl) ?_
    | refine .cons_closing false rfl rfl rfl ?_
    | refine .cons_closing true rfl rfl rfl ?_
  exact .nil 0

theorem laysOut_sourceLines (h : ∀ m ∈ methods, m.step.EndsPlain) :
    LaysOut 0 (sourceLines names methods) (layout names methods) 0 := by
  have hblank : ∀ level, LaysOut level [""] (atLevel level [""]) level :=
    fun level => .cons false (.of_chars rfl rfl rfl) (.nil level)
  have hmethod : ∀ m ∈ methods, LaysOut 1 (methodLines m) (m.layout ++ atLevel 1 [""]) 1 :=
    fun m hm => (Method.laysOut_lines (h m hm)).append (hblank 1)
  have hlines := (((laysOut_headerLines names).append (.flatMap hmethod)).append
    laysOut_footerLines).append (hblank 0)
  simpa only [sourceLines, layout, List.append_assoc] using hlines

/-! ### Levels of a class -/

theorem fst_le_of_mem_atLevel {level : Nat} {texts : List String} {place : Nat × String}
    (h : place ∈ atLevel level texts) : place.1 ≤ level := by
  obtain ⟨text, -, rfl⟩ := List.mem_map.mp h
  simp only
  split
  · exact Nat.zero_le level
  · exact Nat.le_refl level

theorem fst_le_of_mem_methodLayout {m : Method} : ∀ place ∈ m.layout, place.1 ≤ 3 := by
  simp only [Method.layout, List.forall_mem_append]
  and_intros
  all_goals exact fun place hplace => (fst_le_of_mem_atLevel hplace).trans (by decide)

/-- No line stands more than three levels from the margin. -/
theorem fst_le_of_mem_layout : ∀ place ∈ layout names methods, place.1 ≤ 3 := by
  have hmethods : ∀ place ∈ methods.flatMap fun m => m.layout ++ atLevel 1 [""], place.1 ≤ 3 := by
    intro place hplace
    obtain ⟨m, -, hm⟩ := List.mem_flatMap.mp hplace
    rcases List.mem_append.mp hm with hm | hm
    · exact fst_le_of_mem_methodLayout place hm
    · exact (fst_le_of_mem_atLevel hm).trans (by decide)
  simp only [layout, headerLayout, footerLayout, List.forall_mem_append]
  and_intros
  all_goals first
    | exact hmethods
    | exact fun place hplace => (fst_le_of_mem_atLevel hplace).trans (by decide)

theorem mem_layout_three :
    (3, "return false;") ∈ layout names methods := by
  have hplace : (3, "return false;") ∈ atLevel 3 ["return false;"] := by simp [atLevel]
  have hfooter : (3, "return false;") ∈ footerLayout := by
    simp only [footerLayout, List.mem_append, hplace, true_or, or_true]
  rw [layout]
  exact List.mem_append_left _ (List.mem_append_right _ hfooter)

theorem levels_sourceLines (h : ∀ m ∈ methods, m.step.EndsPlain) {code : String}
    (hcode : splitOn '\n' code.toList = (sourceLines names methods).map String.toList) :
    levels 0 (splitOn '\n' code.toList) =
      (layout names methods).map fun place => (place.1, place.2.toList) := by
  rw [hcode]
  exact (laysOut_sourceLines h).levels_eq

/-- The third level is the highest, so its spaces are all that has to be counted. -/
theorem fits_levelsOf_iff [Machine] (h : ∀ m ∈ methods, m.step.EndsPlain) {code : String}
    {size : Int}
    (hcode : splitOn '\n' code.toList = (sourceLines names methods).map String.toList) :
    Fits size (levelsOf code) ↔ Counts size 3 ∧
      Within Machine.blanks (((layout names methods).map Prod.fst).sum * size.toNat) := by
  have hlevels : levelsOf code = (layout names methods).map Prod.fst := by
    rw [levelsOf, levels_sourceLines h hcode, List.map_map]
    rfl
  rw [hlevels, ← sum_spaces]
  constructor
  · rintro ⟨hcounts, hroom⟩
    exact ⟨List.forall_mem_map.mp hcounts _ mem_layout_three, hroom⟩
  · rintro ⟨hcounts, hroom⟩
    refine ⟨List.forall_mem_map.mpr fun place hplace => ?_, hroom⟩
    exact hcounts.of_le (fst_le_of_mem_layout place hplace)

theorem sum_atLevel_zero (texts : List String) : ((atLevel 0 texts).map Prod.fst).sum = 0 := by
  simp [atLevel, Function.comp_def]

/-- Names take no spaces, and make no difference to those of other lines. -/
theorem sum_headerLayout (names : Names) : ((headerLayout names).map Prod.fst).sum = 10 := by
  have hconstructor : constructorLine names ≠ "" := by
    rw [constructorLine]
    simp
  simp only [headerLayout, List.map_append, List.sum_append, sum_atLevel_zero]
  simp [atLevel, fields, constructorNotes, hconstructor]

theorem sum_layout_eq (names names' : Names) (methods : List Method) :
    ((layout names methods).map Prod.fst).sum = ((layout names' methods).map Prod.fst).sum := by
  simp only [layout, List.map_append, List.sum_append, sum_headerLayout]

theorem splitOn_format [Machine] (h : ∀ m ∈ methods, m.step.EndsPlain) {source code : String}
    {size : Nat}
    (hsource : splitOn '\n' source.toList = (sourceLines names methods).map String.toList)
    (hcode : format size source = .ok code) :
    splitOn '\n' code.toList = (layout names methods).map
      fun place => List.replicate (place.1 * size) ' ' ++ place.2.toList := by
  rw [Indentation.splitOn_format hcode, levels_sourceLines h hsource, List.map_map]
  refine List.map_congr_left fun place _ => ?_
  rw [Function.comp_apply, indented, spaces, ← Int.natCast_mul, Int.toNat_natCast]

end ClassSource

namespace Generation

/-- The code of a generation line by line: where each line stands, and that the body of each method
holds comments and blank lines only. -/
structure IsLaidOut (generation : Generation) (names : ClassSource.Names) (size : Nat) : Prop where
  lines : splitOn '\n' generation.code.toList =
    (ClassSource.layout names generation.methods).map
      fun place => List.replicate (place.1 * size) ' ' ++ place.2.toList
  notes : ∀ m ∈ generation.methods, ∀ note ∈ Method.notes m.step,
    note = "" ∨ ['/', '/'] <+: note.toList

theorem endsPlain_of_mem_methods {text : String} (h : ∀ step ∈ stepsOf text, step.OpensNothing) :
    ∀ m ∈ Method.renderAll Registry.empty (stepsOf text), m.step.EndsPlain := by
  intro m hm
  have hstep : m.step ∈ stepsOf text := by
    rw [← Method.map_step_renderAll Registry.empty (stepsOf text)]
    exact List.mem_map.mpr ⟨m, hm, rfl⟩
  obtain ⟨line, -, hparse⟩ := List.mem_filterMap.mp hstep
  exact (h m.step hstep).endsPlain hparse

variable [Machine]

/-- A text whose steps open no block gives a class if and only if the spaces of the third level can
be counted and there is room for all. -/
theorem exists_ofText_iff_counts {config : Config} (hconfig : config.NamesOnOneLine) {size : Int}
    {text : String} (hsteps : ∀ step ∈ stepsOf text, step.OpensNothing)
    (names : ClassSource.Names) :
    (∃ generation, ofText config size text = .ok generation) ↔
      Counts size 3 ∧ Within Machine.blanks (((ClassSource.layout names
        (Method.renderAll Registry.empty (stepsOf text))).map Prod.fst).sum * size.toNat) := by
  obtain ⟨names', source, -, hsource, hlines, -⟩ := exists_sourceOf hconfig text
  rw [exists_ofText_iff hsource, ClassSource.sum_layout_eq names names']
  exact ClassSource.fits_levelsOf_iff (endsPlain_of_mem_methods hsteps) hlines

/-- A text whose steps open no block gives a class with every line at its level. -/
theorem isLaidOut_of_opensNothing {config : Config} (hconfig : config.NamesOnOneLine) (size : Nat)
    {text : String} (hsteps : ∀ step ∈ stepsOf text, step.OpensNothing) :
    ∃ names, ClassSource.Names.ofConfig config = .ok names ∧
      ((∃ generation, ofText config size text = .ok generation) ↔
        Counts size 3 ∧ Within Machine.blanks (((ClassSource.layout names
          (Method.renderAll Registry.empty (stepsOf text))).map Prod.fst).sum * size)) ∧
      ∀ generation, ofText config size text = .ok generation →
        generation.steps = stepsOf text ∧ generation.IsLaidOut names size := by
  obtain ⟨names, source, hnames, hsource, hlines, -⟩ := exists_sourceOf hconfig text
  have hplain := endsPlain_of_mem_methods hsteps
  refine ⟨names, hnames, exists_ofText_iff_counts hconfig hsteps names, ?_⟩
  intro generation hgeneration
  have hparts := comesFrom_of_ofLines hgeneration
  have hmethods : generation.methods = Method.renderAll Registry.empty (stepsOf text) := by
    rw [hparts.methods_eq, hparts.steps_eq, stepsOf]
  obtain ⟨other, hother, hcode⟩ := hparts.exists_source
  obtain rfl : source = other := by
    rw [hmethods, ← sourceOf, hsource] at hother
    exact Except.ok.inj hother
  rw [← hmethods] at hplain hlines
  refine ⟨hparts.steps_eq, ClassSource.splitOn_format hplain hlines hcode, ?_⟩
  intro m hm note hnote
  exact (Method.isNote_of_mem_notes (hplain m hm).toIsRead note hnote).imp_right And.right

end Generation

end StepGlue

/-! ### Braces in a text -/

namespace StepGlue.Generation

attribute [local instance] Machine.plain

/-- Steps with braces at the starts, in the middle and at the end of a quoted text. -/
theorem isLaidOut_of_steps_with_braces :
    (∀ step ∈ stepsOf "Given a \x7b b\nWhen \x7d <x\x7by> \x7b1\nAnd \"\x7b\" \x7d",
      step.OpensNothing) ∧
    ∃ names generation,
      ofText Config.default (2 : Nat)
        "Given a \x7b b\nWhen \x7d <x\x7by> \x7b1\nAnd \"\x7b\" \x7d" = .ok generation ∧
      generation.IsLaidOut names 2 := by
  have hsteps : ∀ step ∈ stepsOf "Given a \x7b b\nWhen \x7d <x\x7by> \x7b1\nAnd \"\x7b\" \x7d",
      step.OpensNothing := by
    decide +kernel
  obtain ⟨names, -, hiff, hgood⟩ := isLaidOut_of_opensNothing namesOnOneLine_default 2 hsteps
  obtain ⟨generation, hgeneration⟩ := hiff.mpr ⟨by decide, within_none _⟩
  exact ⟨hsteps, names, generation, hgeneration, (hgood generation hgeneration).2⟩

end StepGlue.Generation
