import StepGlue.Proofs.Regex.Search
import StepGlue.Proofs.Step.UniqueMatch

/-!
# The match that is found first

A quoted group and a number group are right at the first try. A placeholder group is greedy: it
takes more than its placeholder as soon as what follows matches once more further right. Where that
happens is decided between neighbouring placeholders: either the text between them comes up again
before the second one ends, or a number of two digits or more follows a placeholder directly.
-/

namespace StepGlue.Segment

open Regex Parameter

variable {digits : Digits} {segments : List Segment} {text : List Char}
  {captures : List (List Char)}

/-- Whether the segments also match a proper end of their text. -/
def Resumes (digits : Digits) (segments : List Segment) : Prop :=
  ∃ more tail captures, textOf segments = more ++ tail ∧ more ≠ [] ∧
    Fits digits segments tail captures

def NoneResumes (digits : Digits) : List Segment → Prop
  | [] => True
  | slot .placeholder _ :: rest => ¬Resumes digits rest ∧ NoneResumes digits rest
  | _ :: rest => NoneResumes digits rest

/-! ### Searching segments -/

theorem search_literally (digits : Digits) (before part tail : List Char) (others : List Item) :
    search digits before (literally part ++ others) (part ++ tail) =
      search digits (before ++ part) others tail := by
  induction part generalizing before with
  | nil => simp
  | cons c part ih =>
    have hways : (Piece.one (.only c)).ways digits (c :: (part ++ tail)) =
        [([c], part ++ tail)] := by
      simp [Piece.ways, CharClass.admits]
    rw [literally_cons, List.cons_append, List.cons_append, search, hways, List.flatMap_singleton,
      ih, List.append_assoc, List.singleton_append]

theorem search_eq_nil_iff {before : List Char} (hline : '\n' ∉ text) :
    search digits before (regex segments ++ [.finish]) text = [] ↔
      ∀ captures, ¬Fits digits segments text captures := by
  rw [List.eq_nil_iff_forall_not_mem]
  constructor
  · intro hnone captures hfits
    exact hnone (captures, [])
      (mem_search_iff.mpr ((matches_regex_finish_iff hline).mpr ⟨rfl, hfits⟩))
  · rintro hnone ⟨captures, rest⟩ hmem
    exact hnone captures ((matches_regex_finish_iff hline).mp (mem_search_iff.mp hmem)).2

/-- Whether some captures of the segments are those that the search finds first. -/
def FoundFirst (digits : Digits) (before : List Char) (segments : List Segment)
    (text : List Char) (captures : List (List Char)) : Prop :=
  (search digits before (regex segments ++ [.finish]) text).head? = some (captures, [])

theorem foundFirst_literal_iff {before part : List Char} :
    FoundFirst digits before (literal part :: segments) (part ++ text) captures ↔
      FoundFirst digits (before ++ part) segments text captures := by
  rw [FoundFirst, regex_cons, items, List.append_assoc, search_literally, FoundFirst]

theorem search_one_eq_nil {before : List Char} {c : Char} {others : List Item}
    (h : text.head? ≠ some c) :
    search digits before (.piece (.one (.only c)) :: others) text = [] := by
  rw [List.eq_nil_iff_forall_not_mem]
  rintro ⟨captures, rest⟩ hmem
  obtain ⟨tail, rfl, -⟩ := matches_one_iff.mp (mem_search_iff.mp hmem)
  exact h rfl

theorem foundFirst_quoted_iff {before value value' : List Char} (hvalue : '"' ∉ value)
    (hline : '\n' ∉ value) :
    FoundFirst digits before (slot .quoted value' :: segments) ('"' :: value ++ '"' :: text)
        (value :: captures) ↔
      FoundFirst digits (before ++ ['"'] ++ value ++ ['"']) segments text captures := by
  have hitems : regex (slot .quoted value' :: segments) ++ [.finish] =
      literally ['"'] ++ .group [.many .any 0 .shortestFirst] ::
        (literally ['"'] ++ (regex segments ++ [.finish])) := rfl
  have htext : '"' :: value ++ '"' :: text = ['"'] ++ (value ++ (['"'] ++ text)) := by simp
  rw [FoundFirst, hitems, htext, search_literally, head?_search_many_iff]
  constructor
  · rintro ⟨tail, htail, -, hfound, -⟩
    rw [List.append_cancel_left_eq] at htail
    rwa [← htail, search_literally] at hfound
  · intro hfound
    refine ⟨['"'] ++ text, rfl, ⟨Nat.zero_le _, forall_admits_any_iff.mpr hline⟩, ?_, ?_⟩
    · rwa [search_literally]
    · intro earlier tail htail _ htries
      rcases List.append_eq_append_iff.mp htail with ⟨more, rfl, -⟩ | ⟨more, rfl, rfl⟩
      · simp only [Preference.TriesFirst, List.length_append] at htries
        omega
      · cases more with
        | nil => simp [Preference.TriesFirst] at htries
        | cons c more =>
          apply search_one_eq_nil
          rintro hc
          obtain rfl : c = '"' := by simpa using hc
          exact hvalue (by simp)

theorem foundFirst_number_iff {before value value' : List Char} (hne : value ≠ [])
    (hvalue : ∀ c ∈ value, c.isDigit) (hsettled : Settled segments)
    (hend : EndsWord (textOf segments)) (hline : '\n' ∉ textOf segments) :
    FoundFirst digits before (slot .number value' :: segments) (value ++ textOf segments)
        (value :: captures) ↔
      FoundFirst digits (before ++ value) segments (textOf segments) captures := by
  have hitems : regex (slot .number value' :: segments) ++ [.finish] =
      .group [.many .digit 1 .longestFirst] :: (regex segments ++ [.finish]) := rfl
  rw [FoundFirst, hitems, head?_search_many_iff]
  constructor
  · rintro ⟨tail, htail, -, hfound, -⟩
    rw [List.append_cancel_left_eq] at htail
    rwa [← htail] at hfound
  · intro hfound
    refine ⟨_, rfl, ⟨List.length_pos_of_ne_nil hne,
      fun c hc => digits.admits_of_isDigit (hvalue c hc)⟩, hfound, ?_⟩
    rintro earlier tail htail ⟨-, hearlier⟩ htries
    rcases List.append_eq_append_iff.mp htail with ⟨more, rfl, htext⟩ | ⟨more, rfl, -⟩
    · have htailLine : '\n' ∉ tail := fun hmem => hline (by simp [htext, hmem])
      rw [search_eq_nil_iff htailLine]
      intro captures' hfits
      have hnil := hfits.eq_nil_of_append_eq_textOf hsettled hend
        (fun c hc => hearlier c (List.mem_append_right _ hc)) htext.symm
      simp [hnil, Preference.TriesFirst] at htries
    · simp only [Preference.TriesFirst, List.length_append] at htries
      omega

/-- A placeholder group is right at first if nothing longer leaves a match of the rest. -/
theorem foundFirst_placeholder_iff {before value inner : List Char} (hinner : '\n' ∉ inner)
    (hline : '\n' ∉ textOf segments) :
    FoundFirst digits before (slot .placeholder value :: segments) (inner ++ textOf segments)
        (inner :: captures) ↔
      ¬Resumes digits segments ∧
        FoundFirst digits (before ++ inner) segments (textOf segments) captures := by
  have hitems : regex (slot .placeholder value :: segments) ++ [.finish] =
      .group [.many .any 0 .longestFirst] :: (regex segments ++ [.finish]) := rfl
  rw [FoundFirst, hitems, head?_search_many_iff]
  constructor
  · rintro ⟨tail, htail, -, hfound, hearlier⟩
    rw [List.append_cancel_left_eq] at htail
    subst htail
    refine ⟨?_, hfound⟩
    rintro ⟨more, tail, captures', htext, hmore, hfits⟩
    have hlines : '\n' ∉ inner ++ more ∧ '\n' ∉ tail := by
      rw [htext, List.mem_append, not_or] at hline
      simp [hinner, hline.1, hline.2]
    have hnone := hearlier (inner ++ more) tail (by simp [htext])
      ⟨Nat.zero_le _, forall_admits_any_iff.mpr hlines.1⟩
      (by simpa [Preference.TriesFirst] using List.length_pos_of_ne_nil hmore)
    exact (search_eq_nil_iff hlines.2).mp hnone captures' hfits
  · rintro ⟨hresumes, hfound⟩
    refine ⟨_, rfl, ⟨Nat.zero_le _, forall_admits_any_iff.mpr hinner⟩, hfound, ?_⟩
    intro earlier tail htail _ htries
    rcases List.append_eq_append_iff.mp htail with ⟨more, rfl, htext⟩ | ⟨more, rfl, -⟩
    · have htailLine : '\n' ∉ tail := fun hmem => hline (by simp [htext, hmem])
      rw [search_eq_nil_iff htailLine]
      intro captures' hfits
      refine hresumes ⟨more, tail, captures', htext, ?_, hfits⟩
      rintro rfl
      simp [Preference.TriesFirst] at htries
    · simp only [Preference.TriesFirst, List.length_append] at htries
      omega

/-- The values of the slots are found first if no placeholder can take more. -/
theorem Settled.foundFirst_iff {before : List Char} (hsettled : Settled segments)
    (hline : '\n' ∉ textOf segments) :
    FoundFirst digits before segments (textOf segments) (occurrences segments) ↔
      NoneResumes digits segments := by
  induction segments generalizing before with
  | nil =>
    have hfinish : search digits before [.finish] [] = [([], [])] := by simp [search]
    exact iff_of_true (by simp [FoundFirst, hfinish, occurrences]) trivial
  | cons segment segments ih =>
    rw [textOf_cons, List.mem_append, not_or] at hline
    obtain ⟨hsource, hrest⟩ := hline
    cases segment with
    | literal part => exact foundFirst_literal_iff.trans (ih hsettled.2.2 hrest)
    | slot kind value =>
      cases kind with
      | quoted =>
        have hvalue : '\n' ∉ value := fun hmem => hsource (by simp [source, hmem])
        have htext : textOf (slot .quoted value :: segments) =
            '"' :: value ++ '"' :: textOf segments := by simp [source]
        rw [htext]
        exact (foundFirst_quoted_iff hsettled.1 hvalue).trans (ih hsettled.2 hrest)
      | placeholder =>
        exact (foundFirst_placeholder_iff hsource hrest).trans
          (and_congr_right fun _ => ih hsettled hrest)
      | number =>
        obtain ⟨hne, hvalue, hend, hsettled⟩ := hsettled
        exact (foundFirst_number_iff hne hvalue hsettled hend hrest).trans (ih hsettled hrest)

end StepGlue.Segment
