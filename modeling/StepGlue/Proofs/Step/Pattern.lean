import StepGlue.Proofs.Regex.Reader
import StepGlue.Proofs.Step.Segment
import StepGlue.Step.Pattern

/-!
# Patterns read as expressions

The pattern of some segments is read back segment by segment: literal text as its own characters,
whatever they are, and each slot as the capture of its kind.
-/

namespace StepGlue

open Regex Parameter

theorem Pattern.isMeta_eq_isSpecial (c : Char) : Pattern.isMeta c = isSpecial c := by
  have hlist : "\\.^$*+?\x7b\x7d[]|()".toList =
      ['\\', '.', '^', '$', '*', '+', '?', '{', '}', '[', ']', '|', '(', ')'] := by
    decide
  rw [Pattern.isMeta, isSpecial, hlist, List.contains_eq_mem]

namespace Parameter.Kind

def items : Kind → List Item
  | quoted =>
    [ .piece (.one (.only '"')), .group [.many .any 0 .shortestFirst], .piece (.one (.only '"')) ]
  | placeholder => [.group [.many .any 0 .longestFirst]]
  | number => [.group [.many .digit 1 .longestFirst]]

/-- Whether a group captures the values of a kind: lazily all between two quotes, greedily all, or
one digit or more. -/
def CapturedBy : Kind → Site → Prop
  | quoted, site =>
    site = ⟨some (.piece (.one (.only '"'))), [.many .any 0 .shortestFirst],
      some (.piece (.one (.only '"')))⟩
  | placeholder, site => site.body = [.many .any 0 .longestFirst]
  | number, site => site.body = [.many .digit 1 .longestFirst]

end Parameter.Kind

namespace Segment

def items : Segment → List Item
  | literal text => literally text
  | slot kind _ => kind.items

/-- The expression that the pattern of some segments stands for. -/
def regex (segments : List Segment) : List Item :=
  segments.flatMap items

@[simp]
theorem regex_nil : regex [] = [] := rfl

@[simp]
theorem regex_cons (segment : Segment) (segments : List Segment) :
    regex (segment :: segments) = segment.items ++ regex segments := rfl

def tokens : Segment → List Token
  | literal text => text.map fun c => .character (.only c)
  | slot .quoted _ =>
    [ .character (.only '"'), .opening, .character .any, .repetition 0 .shortestFirst, .closing,
      .character (.only '"') ]
  | slot .placeholder _ =>
    [.opening, .character .any, .repetition 0 .longestFirst, .closing]
  | slot .number _ => [.opening, .character .digit, .repetition 1 .longestFirst, .closing]

theorem tokens?_escape_append (text rest : List Char) :
    tokens? (Pattern.escape text ++ rest) =
      (tokens? rest).map (text.map (fun c => Token.character (.only c)) ++ ·) := by
  induction text with
  | nil => simp [Pattern.escape]
  | cons c text ih =>
    have hcons : Pattern.escape (c :: text) ++ rest =
        (if Pattern.isMeta c then ['\\', c] else [c]) ++ (Pattern.escape text ++ rest) := by
      simp [Pattern.escape]
    rw [hcons, Pattern.isMeta_eq_isSpecial]
    by_cases hspecial : isSpecial c
    · have hne : c ≠ 'd' := by
        rintro rfl
        exact absurd hspecial (by decide)
      have hescaped : escaped? c = some (.character (.only c)) := by
        simp [escaped?, hne, hspecial]
      rw [if_pos hspecial, List.cons_append, List.singleton_append, tokens?_escape hescaped, ih,
        Option.map_map]
      rfl
    · rw [if_neg hspecial, List.singleton_append, tokens?_of_not_isSpecial hspecial, ih,
        Option.map_map]
      rfl

theorem tokens?_ofSegment (segment : Segment) (rest : List Char) :
    tokens? (Pattern.ofSegment segment ++ rest) = (tokens? rest).map (segment.tokens ++ ·) := by
  match segment with
  | literal text => exact tokens?_escape_append text rest
  | slot .quoted value =>
    have hcapture : Kind.quoted.capture.toList = ['"', '(', '.', '*', '?', ')', '"'] := by decide
    simp [Pattern.ofSegment, hcapture, tokens?, bare?, isSpecial, tokens, Function.comp_def]
  | slot .placeholder value =>
    have hcapture : Kind.placeholder.capture.toList = ['(', '.', '*', ')'] := by decide
    simp [Pattern.ofSegment, hcapture, tokens?, bare?, tokens, Function.comp_def]
  | slot .number value =>
    have hcapture : Kind.number.capture.toList = ['(', '\\', 'd', '+', ')'] := by decide
    simp [Pattern.ofSegment, hcapture, tokens?, bare?, escaped?, tokens, Function.comp_def]

theorem tokens?_ofSegments (segments : List Segment) (rest : List Char) :
    tokens? (segments.flatMap Pattern.ofSegment ++ rest) =
      (tokens? rest).map (segments.flatMap tokens ++ ·) := by
  induction segments with
  | nil => simp
  | cons segment segments ih =>
    rw [List.flatMap_cons, List.append_assoc, tokens?_ofSegment, ih, Option.map_map]
    simp [Function.comp_def]

/-- The token before some tokens is not repeated by them. -/
def StartsNoRepetition (tokens : List Token) : Prop :=
  ∀ least preference, tokens.head? ≠ some (.repetition least preference)

theorem items?_character {cls : CharClass} {rest : List Token} (h : StartsNoRepetition rest) :
    items? none (.character cls :: rest) = (items? none rest).map (.piece (.one cls) :: ·) := by
  rw [items?]
  rintro least preference others rfl
  exact h least preference rfl

theorem startsNoRepetition_flatMap_tokens (segments : List Segment) {rest : List Token}
    (h : StartsNoRepetition rest) : StartsNoRepetition (segments.flatMap tokens ++ rest) := by
  induction segments with
  | nil => exact h
  | cons segment segments ih =>
    match segment with
    | literal [] => exact ih
    | literal (c :: text) => simp [StartsNoRepetition, tokens]
    | slot .quoted value => simp [StartsNoRepetition, tokens]
    | slot .placeholder value => simp [StartsNoRepetition, tokens]
    | slot .number value => simp [StartsNoRepetition, tokens]

theorem items?_literal (text : List Char) {rest : List Token} (h : StartsNoRepetition rest) :
    items? none (tokens (literal text) ++ rest) = (items? none rest).map (literally text ++ ·) := by
  induction text with
  | nil => simp [tokens]
  | cons c text ih =>
    have hrest : StartsNoRepetition (tokens (literal text) ++ rest) := by
      simpa using startsNoRepetition_flatMap_tokens [literal text] h
    rw [show tokens (literal (c :: text)) ++ rest =
      .character (.only c) :: (tokens (literal text) ++ rest) from rfl, items?_character hrest, ih,
      Option.map_map]
    rfl

theorem items?_tokens (segment : Segment) {rest : List Token} (h : StartsNoRepetition rest) :
    items? none (segment.tokens ++ rest) = (items? none rest).map (segment.items ++ ·) := by
  match segment with
  | literal text => exact items?_literal text h
  | slot .quoted value =>
    simp [tokens, items?, items?_character h, items, Kind.items, Function.comp_def]
  | slot .placeholder value => simp [tokens, items?, items, Kind.items]
  | slot .number value => simp [tokens, items?, items, Kind.items]

theorem items?_flatMap_tokens (segments : List Segment) (rest : List Token)
    (h : StartsNoRepetition rest) :
    items? none (segments.flatMap tokens ++ rest) =
      (items? none rest).map (regex segments ++ ·) := by
  induction segments with
  | nil => simp
  | cons segment segments ih =>
    rw [List.flatMap_cons, List.append_assoc,
      items?_tokens segment (startsNoRepetition_flatMap_tokens segments h), ih, Option.map_map]
    simp [Function.comp_def]

theorem read?_ofSegments (segments : List Segment) :
    read? (Pattern.ofSegments segments).toList = some (regex segments) := by
  have htokens := tokens?_ofSegments segments []
  have hitems := items?_flatMap_tokens segments [] (by simp [StartsNoRepetition])
  simp only [List.append_nil, tokens?, Option.map_some] at htokens hitems
  rw [Pattern.ofSegments, String.toList_ofList, read?, htokens, Option.bind_some, hitems, items?,
    Option.map_some, List.append_nil]

/-- The expression that the anchored pattern of some segments stands for. -/
def anchoredRegex (segments : List Segment) : List Item :=
  .start :: regex segments ++ [.finish]

theorem read?_anchored (segments : List Segment) :
    read? (Pattern.anchored (Pattern.ofSegments segments)).toList =
      some (anchoredRegex segments) := by
  have hchars : (Pattern.anchored (Pattern.ofSegments segments)).toList =
      '^' :: (segments.flatMap Pattern.ofSegment ++ ['$']) := by
    simp [Pattern.anchored, Pattern.ofSegments]
  have htokens : tokens? ('^' :: (segments.flatMap Pattern.ofSegment ++ ['$'])) =
      some (.start :: (segments.flatMap tokens ++ [.finish])) := by
    simp [tokens?, bare?, tokens?_ofSegments]
  have hitems := items?_flatMap_tokens segments [.finish] (by simp [StartsNoRepetition])
  rw [hchars, read?, htokens, Option.bind_some, items?, hitems]
  rfl

/-! ### Capture groups -/

theorem sitesAfter_literally (before : Option Item) (text : List Char) (rest : List Item) :
    ∃ before', sitesAfter before (literally text ++ rest) = sitesAfter before' rest := by
  induction text generalizing before with
  | nil => exact ⟨before, rfl⟩
  | cons c text ih => exact ih (some (.piece (.one (.only c))))

/-- The groups of a pattern are the captures of its slots, in their order. -/
theorem capturedBy_sitesAfter (before : Option Item) (segments : List Segment) :
    List.Forall₂ Kind.CapturedBy (segments.filterMap kind?)
      (sitesAfter before (regex segments)) := by
  induction segments generalizing before with
  | nil => exact .nil
  | cons segment segments ih =>
    match segment with
    | literal text =>
      obtain ⟨before', hsites⟩ := sitesAfter_literally before text (regex segments)
      rw [regex_cons, items, hsites]
      exact ih before'
    | slot .quoted value => exact .cons rfl (ih _)
    | slot .placeholder value => exact .cons rfl (ih _)
    | slot .number value => exact .cons rfl (ih _)

end Segment

end StepGlue
