import StepGlue.Proofs.Indentation

/-!
# Lines with annotations

An annotation is a line whose first character that is no blank is an at sign. A line that starts
otherwise is plain, whatever is written behind its start.
-/

namespace StepGlue

open Text

/-- The annotations among some lines, trimmed. -/
def annotationsAmong (lines : List (List Char)) : List (List Char) :=
  (lines.map trim).filter fun line => line.head? == some '@'

@[simp]
theorem annotationsAmong_append (lines others : List (List Char)) :
    annotationsAmong (lines ++ others) = annotationsAmong lines ++ annotationsAmong others := by
  simp [annotationsAmong]

/-- A single line that is no annotation. -/
structure IsPlain (line : String) : Prop where
  oneLine : OneLine line
  head?_ne : (trimLeft line.toList).head? ≠ some '@'

/-- Whether a text makes every line plain that it starts. -/
def startsPlain (start : List Char) : Bool :=
  !start.contains '\n' && (trimLeft start).head?.any (· != '@')

theorem isPlain_empty : IsPlain "" :=
  ⟨List.not_mem_nil, nofun⟩

theorem IsPlain.append {start : List Char} {rest : String} (h : startsPlain start)
    (hrest : OneLine rest) : IsPlain (String.ofList start ++ rest) := by
  rw [startsPlain, Bool.and_eq_true, Bool.not_eq_true', List.contains_eq_mem,
    decide_eq_false_iff_not] at h
  obtain ⟨hfeed, hhead⟩ := h
  refine ⟨oneLine_append.mpr ⟨oneLine_ofList.mpr hfeed, hrest⟩, ?_⟩
  cases hleft : trimLeft start with
  | nil => simp [hleft] at hhead
  | cons c tail =>
    have hne : trimLeft start ≠ [] := by simp [hleft]
    rw [String.toList_append, String.toList_ofList, trimLeft_append hne, hleft]
    simpa [hleft] using hhead

theorem IsPlain.literal {start : List Char} (h : startsPlain start) :
    IsPlain (String.ofList start) := by
  simpa using IsPlain.append h isPlain_empty.oneLine

theorem annotationsAmong_of_isPlain {lines : List String} (h : ∀ line ∈ lines, IsPlain line) :
    annotationsAmong (lines.map String.toList) = [] := by
  rw [annotationsAmong, List.filter_eq_nil_iff]
  intro trimmed htrimmed
  obtain ⟨_, hmem, rfl⟩ := List.mem_map.mp htrimmed
  obtain ⟨line, hline, rfl⟩ := List.mem_map.mp hmem
  rw [head?_trim, beq_iff_eq]
  exact (h line hline).head?_ne

theorem annotationsAmong_format [Machine] {size : Int} {code out : String}
    (h : Indentation.format size code = .ok out) :
    annotationsAmong (splitOn '\n' out.toList) = annotationsAmong (splitOn '\n' code.toList) := by
  have hlines := Indentation.trimmedLines_format h
  rw [Indentation.trimmedLines, Indentation.trimmedLines] at hlines
  rw [annotationsAmong, hlines, annotationsAmong]

end StepGlue
