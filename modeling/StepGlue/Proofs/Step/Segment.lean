import Mathlib.Data.List.TakeWhile
import StepGlue.Step.Segment

/-!
# The segments of a step text

Cutting a text loses nothing: `textOf_scan` puts the segments together again. What the later
modules need to know about the cuts is in `Settled`: a quoted value holds no quote, and a number is
a word of its own, both at its end and against a literal that starts with digits.
-/

namespace StepGlue

/-- What the capture group of a parameter captures in the step text. -/
def Parameter.occurrence (p : Parameter) : List Char :=
  match p.kind with
  | .quoted | .number => p.value.toList
  | .placeholder => '<' :: p.value.toList ++ ['>']

namespace Segment

open Parameter

/-- The text that a segment was cut from. -/
def source : Segment → List Char
  | literal text => text
  | slot .quoted value => '"' :: value ++ ['"']
  | slot .placeholder value => '<' :: value ++ ['>']
  | slot .number value => value

def textOf (segments : List Segment) : List Char :=
  segments.flatMap source

@[simp]
theorem textOf_nil : textOf [] = [] := rfl

@[simp]
theorem textOf_cons (segment : Segment) (segments : List Segment) :
    textOf (segment :: segments) = segment.source ++ textOf segments := rfl

@[simp]
theorem textOf_append (left right : List Segment) :
    textOf (left ++ right) = textOf left ++ textOf right :=
  List.flatMap_append

theorem textOf_consLiteral (text : List Char) (segments : List Segment) :
    textOf (consLiteral text segments) = text ++ textOf segments := by
  unfold consLiteral
  split <;> simp [source]

theorem textOf_delimited {kind : Kind} {opening closing : Char}
    (hsource : ∀ value, source (slot kind value) = opening :: value ++ [closing])
    (text : List Char) : textOf (delimited kind opening closing text) = text := by
  fun_induction delimited kind opening closing text with
  | case1 => rfl
  | case2 rest value after hcut ih =>
    obtain ⟨rfl, -⟩ := cut?_eq_some_iff.mp hcut
    simp [hsource, ih]
  | case3 rest hcut => simp [source]
  | case4 c rest hc ih => rw [textOf_consLiteral, ih, List.singleton_append]

theorem textOf_numbers (text : List Char) : textOf (numbers text) = text := by
  fun_induction numbers text with
  | case1 => rfl
  | case2 c rest hc word others hword ih =>
    rw [textOf_cons, ih, source, List.cons_append, List.takeWhile_append_dropWhile]
  | case3 c rest hc word others hword ih =>
    rw [textOf_consLiteral, ih, List.cons_append, List.takeWhile_append_dropWhile]
  | case4 c rest hc ih => rw [textOf_consLiteral, ih, List.singleton_append]

theorem textOf_flatMap_refine {search : List Char → List Segment}
    (hsearch : ∀ text, textOf (search text) = text) (segments : List Segment) :
    textOf (segments.flatMap (refine search)) = textOf segments := by
  induction segments with
  | nil => rfl
  | cons segment segments ih =>
    rw [List.flatMap_cons, textOf_append, textOf_cons, ih]
    cases segment <;> simp [refine, hsearch, source]

/-- The segments of a text are cut from all of it, in order. -/
theorem textOf_scan (text : List Char) : textOf (scan text) = text := by
  rw [scan, textOf_flatMap_refine textOf_numbers, textOf_flatMap_refine (textOf_delimited _),
    textOf_delimited]
  · exact fun _ => rfl
  · exact fun _ => rfl

/-! ### Slots and parameters -/

/-- What the capture group of a segment captures, if the segment has one. -/
def occurrence? : Segment → Option (List Char)
  | literal _ => none
  | slot .placeholder value => some ('<' :: value ++ ['>'])
  | slot _ value => some value

def occurrences (segments : List Segment) : List (List Char) :=
  segments.filterMap occurrence?

def kind? : Segment → Option Kind
  | literal _ => none
  | slot kind _ => some kind

theorem map_occurrence_parametersAfter (seen : List Kind) (segments : List Segment) :
    (parametersAfter seen segments).map Parameter.occurrence = occurrences segments := by
  induction segments generalizing seen with
  | nil => rfl
  | cons segment segments ih =>
    cases segment with
    | literal text => exact ih seen
    | slot kind value =>
      rw [parametersAfter, List.map_cons, ih]
      cases kind <;> simp [occurrences, occurrence?, Parameter.occurrence]

theorem map_kind_parametersAfter (seen : List Kind) (segments : List Segment) :
    (parametersAfter seen segments).map Parameter.kind = segments.filterMap kind? := by
  induction segments generalizing seen with
  | nil => rfl
  | cons segment segments ih =>
    cases segment with
    | literal text => exact ih seen
    | slot kind value =>
      rw [parametersAfter, List.map_cons, ih]
      rfl

/-! ### Where the cuts lie -/

/-- No word continues at the start of a text. -/
def EndsWord (text : List Char) : Prop :=
  ∀ c ∈ text.head?, ¬isWordChar c

/-- The word at the start of a text, if there is one, is no number. -/
def StartsNoNumber (text : List Char) : Prop :=
  isWordChar (text.headD ' ') → ∃ c ∈ text.takeWhile isWordChar, ¬c.isDigit

/-- A list of segments as a scan leaves it. -/
def Settled : List Segment → Prop
  | [] => True
  | literal text :: rest => text ≠ [] ∧ StartsNoNumber text ∧ Settled rest
  | slot .quoted value :: rest => '"' ∉ value ∧ Settled rest
  | slot .placeholder _ :: rest => Settled rest
  | slot .number value :: rest =>
    value ≠ [] ∧ (∀ c ∈ value, c.isDigit) ∧ EndsWord (textOf rest) ∧ Settled rest

/-- A list of segments before the numbers are cut. Literal text ends at a slot or at the end of the
text, so that no word goes on there. -/
def Apart : List Segment → Prop
  | [] => True
  | literal _ :: rest => EndsWord (textOf rest) ∧ Apart rest
  | slot .quoted value :: rest => '"' ∉ value ∧ Apart rest
  | slot .placeholder _ :: rest => Apart rest
  | slot .number _ :: _ => False

theorem endsWord_nil : EndsWord [] := by
  simp [EndsWord]

theorem endsWord_cons {c : Char} {text : List Char} : EndsWord (c :: text) ↔ ¬isWordChar c := by
  simp [EndsWord]

theorem EndsWord.append {left right : List Char} (hleft : EndsWord left) (hright : EndsWord right) :
    EndsWord (left ++ right) := by
  cases left with
  | nil => exact hright
  | cons c left => exact endsWord_cons.mpr (endsWord_cons.mp hleft)

theorem endsWord_dropWhile (text : List Char) : EndsWord (text.dropWhile isWordChar) := by
  intro c hc
  have hdrop := List.head?_dropWhile_not isWordChar text
  rw [Option.mem_def] at hc
  simp [hc] at hdrop
  simp [hdrop]

theorem Apart.append {left right : List Segment} (hleft : Apart left) (hright : Apart right)
    (hend : EndsWord (textOf right)) : Apart (left ++ right) := by
  induction left with
  | nil => exact hright
  | cons segment left ih =>
    match segment with
    | literal text =>
      have hrest : EndsWord (textOf (left ++ right)) := by
        rw [textOf_append]
        exact hleft.1.append hend
      exact ⟨hrest, ih hleft.2⟩
    | slot .quoted value => exact ⟨hleft.1, ih hleft.2⟩
    | slot .placeholder value => exact ih hleft
    | slot .number value => exact hleft.elim

theorem Apart.consLiteral {text : List Char} {segments : List Segment} (h : Apart segments)
    (hend : (∃ more rest, segments = literal more :: rest) ∨ EndsWord (textOf segments)) :
    Apart (consLiteral text segments) := by
  rcases hend with ⟨more, rest, rfl⟩ | hend
  · exact h
  · unfold Segment.consLiteral
    split
    · exact h
    · exact ⟨hend, h⟩

/-- The segments that a search for delimited stretches gives start with a literal or with no
word. -/
theorem delimited_start {kind : Kind} {opening closing : Char}
    (hopening : ¬isWordChar opening)
    (hsource : ∀ value, source (slot kind value) = opening :: value ++ [closing])
    (text : List Char) :
    (∃ more rest, delimited kind opening closing text = literal more :: rest) ∨
      EndsWord (textOf (delimited kind opening closing text)) := by
  rw [textOf_delimited hsource]
  cases text with
  | nil => exact .inr endsWord_nil
  | cons c rest =>
    by_cases hc : c = opening
    · exact .inr (endsWord_cons.mpr (hc ▸ hopening))
    · left
      rw [delimited, if_neg hc]
      unfold Segment.consLiteral
      split
      · exact ⟨_, _, rfl⟩
      · exact ⟨_, _, rfl⟩

theorem apart_delimited {kind : Kind} {opening closing : Char}
    (hopening : ¬isWordChar opening)
    (hsource : ∀ value, source (slot kind value) = opening :: value ++ [closing])
    (hslot : ∀ value rest, closing ∉ value → Apart rest → Apart (slot kind value :: rest))
    (text : List Char) : Apart (delimited kind opening closing text) := by
  fun_induction delimited kind opening closing text with
  | case1 => trivial
  | case2 rest value after hcut ih => exact hslot value _ (cut?_eq_some_iff.mp hcut).2 ih
  | case3 rest hcut => exact ⟨endsWord_nil, trivial⟩
  | case4 c rest hc ih => exact ih.consLiteral (delimited_start hopening hsource rest)

theorem Apart.flatMap_refine_placeholders {segments : List Segment} (h : Apart segments) :
    Apart (segments.flatMap (refine (delimited .placeholder '<' '>'))) := by
  have hsource : ∀ value, source (slot .placeholder value) = '<' :: value ++ ['>'] := fun _ => rfl
  induction segments with
  | nil => trivial
  | cons segment segments ih =>
    match segment with
    | literal text =>
      have hliteral : Apart (delimited .placeholder '<' '>' text) :=
        apart_delimited (by decide) hsource (fun _ _ _ hrest => hrest) text
      have hend : EndsWord
          (textOf (segments.flatMap (refine (delimited .placeholder '<' '>')))) := by
        rw [textOf_flatMap_refine (textOf_delimited hsource)]
        exact h.1
      exact hliteral.append (ih h.2) hend
    | slot .quoted value => exact ⟨h.1, ih h.2⟩
    | slot .placeholder value => exact ih h
    | slot .number value => exact h.elim

theorem Settled.append {left right : List Segment} (hleft : Settled left) (hright : Settled right)
    (hend : EndsWord (textOf right)) : Settled (left ++ right) := by
  induction left with
  | nil => exact hright
  | cons segment left ih =>
    match segment with
    | literal text => exact ⟨hleft.1, hleft.2.1, ih hleft.2.2⟩
    | slot .quoted value => exact ⟨hleft.1, ih hleft.2⟩
    | slot .placeholder value => exact ih hleft
    | slot .number value =>
      have hrest : EndsWord (textOf (left ++ right)) := by
        rw [textOf_append]
        exact hleft.2.2.1.append hend
      exact ⟨hleft.1, hleft.2.1, hrest, ih hleft.2.2.2⟩

theorem StartsNoNumber.append {text : List Char} (h : StartsNoNumber text) (hne : text ≠ [])
    (more : List Char) : StartsNoNumber (text ++ more) := by
  intro hword
  cases text with
  | nil => exact absurd rfl hne
  | cons c text =>
    obtain ⟨d, hd, hdigit⟩ := h hword
    refine ⟨d, ?_, hdigit⟩
    rw [List.takeWhile_append]
    split
    · rename_i hall
      rw [(List.takeWhile_prefix isWordChar).eq_of_length hall] at hd
      exact List.mem_append_left _ hd
    · exact hd

theorem Settled.consLiteral {text : List Char} {segments : List Segment} (h : Settled segments)
    (hne : text ≠ []) (hstart : StartsNoNumber text) : Settled (consLiteral text segments) := by
  unfold Segment.consLiteral
  split
  · rename_i more rest
    exact ⟨by simp [hne], hstart.append hne more, h.2.2⟩
  · exact ⟨hne, hstart, h⟩

theorem settled_numbers (text : List Char) : Settled (numbers text) := by
  fun_induction numbers text with
  | case1 => trivial
  | case2 c rest hc word others hword ih =>
    refine ⟨by simp [word], List.all_eq_true.mp hword, ?_, ih⟩
    rw [textOf_numbers]
    exact endsWord_dropWhile rest
  | case3 c rest hc word others hword ih =>
    apply ih.consLiteral (by simp [word])
    intro _
    have htake : word.takeWhile isWordChar = word := by
      rw [List.takeWhile_eq_self_iff]
      intro d hd
      rcases List.mem_cons.mp hd with rfl | hd
      · exact hc
      · exact List.mem_takeWhile_imp hd
    rw [htake]
    simpa using hword
  | case4 c rest hc ih =>
    apply ih.consLiteral (by simp)
    intro hword
    exact absurd hword hc

theorem Apart.settled {segments : List Segment} (h : Apart segments) :
    Settled (segments.flatMap (refine numbers)) := by
  induction segments with
  | nil => trivial
  | cons segment segments ih =>
    match segment with
    | literal text =>
      have hend : EndsWord (textOf (segments.flatMap (refine numbers))) := by
        rw [textOf_flatMap_refine textOf_numbers]
        exact h.1
      exact (settled_numbers text).append (ih h.2) hend
    | slot .quoted value => exact ⟨h.1, ih h.2⟩
    | slot .placeholder value => exact ih h
    | slot .number value => exact h.elim

theorem settled_scan (text : List Char) : Settled (scan text) := by
  have hslot : ∀ value rest, '"' ∉ value → Apart rest → Apart (slot .quoted value :: rest) :=
    fun _ _ hvalue hrest => ⟨hvalue, hrest⟩
  have hquoted : Apart (delimited .quoted '"' '"' text) :=
    apart_delimited (by decide) (fun _ => rfl) hslot text
  exact hquoted.flatMap_refine_placeholders.settled

end Segment

end StepGlue
