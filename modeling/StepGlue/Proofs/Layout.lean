import StepGlue.Proofs.Indentation

/-!
# Lines at their levels

A part of a source is laid out when each of its lines has its place and the level that it leaves
behind is known. Parts that fit together are laid out together, so every line that starts or ends a
block is looked at once, and lines in between stay at their level whatever braces they hold inside.
-/

namespace StepGlue.Indentation

open Text

variable {level middle next : Nat} {lines others : List String} {line text rest : String}
  {places : List (Nat × String)}

/-! ### Parts of a source -/

/-- The lines of a source stand at places from a level on, and leave the next level behind. -/
structure LaysOut (level : Nat) (lines : List String) (places : List (Nat × String))
    (next : Nat) : Prop where
  levels_eq : levels level (lines.map String.toList) =
    places.map fun place => (place.1, place.2.toList)
  levelAfter_eq : levelAfter level (lines.map String.toList) = next

theorem LaysOut.append {otherPlaces : List (Nat × String)}
    (h : LaysOut level lines places middle) (hothers : LaysOut middle others otherPlaces next) :
    LaysOut level (lines ++ others) (places ++ otherPlaces) next where
  levels_eq := by
    rw [List.map_append, levels_append, h.levels_eq, h.levelAfter_eq, hothers.levels_eq,
      List.map_append]
  levelAfter_eq := by
    rw [List.map_append, levelAfter_append, h.levelAfter_eq, hothers.levelAfter_eq]

theorem LaysOut.nil (level : Nat) : LaysOut level [] [] level :=
  ⟨rfl, rfl⟩

/-- Parts that leave the level as they found it can be repeated. -/
theorem LaysOut.flatMap {α : Type} {parts : List α} {linesOf : α → List String}
    {placesOf : α → List (Nat × String)}
    (h : ∀ part ∈ parts, LaysOut level (linesOf part) (placesOf part) level) :
    LaysOut level (parts.flatMap linesOf) (parts.flatMap placesOf) level := by
  induction parts with
  | nil => exact .nil level
  | cons part parts ih =>
    rw [List.forall_mem_cons] at h
    rw [List.flatMap_cons, List.flatMap_cons]
    exact h.1.append (ih h.2)

/-- Places at one level, except that blank lines stand at the margin. -/
def atLevel (level : Nat) (texts : List String) : List (Nat × String) :=
  texts.map fun text => (if text = "" then 0 else level, text)

/-! ### Single lines -/

/-- A line that closes no block, with the text between the blanks at its ends. -/
structure IsTrimmed (opening : Bool) (line text : String) : Prop where
  trim_eq : trim line.toList = text.toList
  closes_eq : closes text.toList = false
  opens_eq : opens text.toList = opening

/-- Of a line that is fixed in advance, everything can be read off its characters. -/
theorem IsTrimmed.of_chars {opening : Bool} {lineChars textChars : List Char}
    (htrim : trim lineChars = textChars) (hcloses : closes textChars = false)
    (hopens : opens textChars = opening) :
    IsTrimmed opening (String.ofList lineChars) (String.ofList textChars) where
  trim_eq := by rw [String.toList_ofList, String.toList_ofList, htrim]
  closes_eq := by rw [String.toList_ofList, hcloses]
  opens_eq := by rw [String.toList_ofList, hopens]

theorem LaysOut.cons (opening : Bool) (h : IsTrimmed opening line text)
    (hrest : LaysOut (if opening then level + 1 else level) lines places next) :
    LaysOut level (line :: lines) (atLevel level [text] ++ places) next := by
  by_cases hempty : text = ""
  · have htrim : trim line.toList = [] := by rw [h.trim_eq, hempty, String.toList_empty]
    obtain rfl : opening = false := by
      rw [← h.opens_eq, hempty]
      rfl
    rw [if_neg Bool.false_ne_true] at hrest
    constructor
    · simp [levels, atLevel, htrim, hempty, hrest.levels_eq]
    · simp [levelAfter, htrim, hrest.levelAfter_eq]
  · constructor
    · simp [levels, atLevel, h.trim_eq, hempty, h.closes_eq, h.opens_eq, hrest.levels_eq]
    · simp [levelAfter, h.trim_eq, hempty, h.closes_eq, h.opens_eq, hrest.levelAfter_eq]

/-- A line that starts with a closing brace stands one level lower. -/
theorem LaysOut.cons_closing {lineChars textChars : List Char} (opening : Bool)
    (htrim : trim lineChars = textChars) (hcloses : closes textChars = true)
    (hopens : opens textChars = opening)
    (hrest : LaysOut (if opening then level + 1 else level) lines places next) :
    LaysOut (level + 1) (String.ofList lineChars :: lines)
      (atLevel level [String.ofList textChars] ++ places) next := by
  have hne : textChars ≠ [] := by
    rintro rfl
    exact absurd hcloses (by decide)
  constructor
  · simp [levels, atLevel, htrim, hcloses, hopens, hne, hrest.levels_eq]
  · simp [levelAfter, htrim, hcloses, hopens, hne, hrest.levelAfter_eq]

/-- Lines that neither open nor close a block stay at their level. -/
theorem LaysOut.of_forall₂ {texts : List String} (h : List.Forall₂ (IsTrimmed false) lines texts) :
    LaysOut level lines (atLevel level texts) level := by
  induction h with
  | nil => exact .nil level
  | cons hline _ ih => exact LaysOut.cons false hline ih

/-- What a line starts and ends with decides about its blocks, whatever stands in between. -/
theorem IsTrimmed.append {start visible : List Char} {c : Char}
    (hlast : rest.toList.getLast? = some c) (hblank : ¬isBlank c)
    (hvisible : trimLeft start = visible) (hhead : visible.head?.any (· != '}')) :
    IsTrimmed (c == '{') (String.ofList start ++ rest) (String.ofList visible ++ rest) := by
  have hne : trimLeft start ≠ [] := by
    rintro hnil
    rw [← hvisible, hnil] at hhead
    exact absurd hhead (by decide)
  have hlast' : (visible ++ rest.toList).getLast? = some c := by
    rw [List.getLast?_append, hlast, Option.some_or]
  have hchars : (String.ofList visible ++ rest).toList = visible ++ rest.toList := by simp
  constructor
  · rw [hchars, String.toList_append, String.toList_ofList, trim, trimLeft_append hne, hvisible]
    refine trimRight_eq_self fun b hb => ?_
    rw [Option.mem_def, hlast', Option.some.injEq] at hb
    exact hb ▸ hblank
  · obtain ⟨b, tail, rfl⟩ := List.exists_cons_of_ne_nil (hvisible ▸ hne)
    rw [hchars, closes]
    simpa using hhead
  · rw [hchars, opens, hlast']
    rfl

/-- Whether a text ends with a character that is neither a blank nor an opening brace. -/
def endsPlain (s : String) : Bool :=
  s.toList.getLast?.any fun c => !isBlank c && c != '{'

theorem endsPlain_iff {s : String} :
    endsPlain s ↔ ∃ c, s.toList.getLast? = some c ∧ ¬isBlank c ∧ c ≠ '{' := by
  simp [endsPlain, Option.any_eq_true]

theorem endsPlain_literal {chars : List Char}
    (h : chars.getLast?.any fun c => !isBlank c && c != '{') : endsPlain (String.ofList chars) := by
  rw [endsPlain, String.toList_ofList, h]

theorem endsPlain_append {s t : String} (h : endsPlain t) : endsPlain (s ++ t) := by
  obtain ⟨c, hlast, hc⟩ := endsPlain_iff.mp h
  exact endsPlain_iff.mpr ⟨c, getLast?_toList_append hlast, hc⟩

theorem opens_eq_false_of_endsPlain {s : String} (h : endsPlain s) : opens s.toList = false := by
  obtain ⟨c, hlast, -, hne⟩ := endsPlain_iff.mp h
  rw [opens, hlast]
  exact beq_false_of_ne fun heq => hne (Option.some.inj heq)

theorem IsTrimmed.of_endsPlain {start visible : List Char} (hrest : endsPlain rest)
    (hvisible : trimLeft start = visible) (hhead : visible.head?.any (· != '}')) :
    IsTrimmed false (String.ofList start ++ rest) (String.ofList visible ++ rest) := by
  obtain ⟨c, hlast, hblank, hne⟩ := endsPlain_iff.mp hrest
  have hline := IsTrimmed.append hlast hblank hvisible hhead
  rwa [beq_false_of_ne hne] at hline

end StepGlue.Indentation
