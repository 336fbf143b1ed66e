import StepGlue.Proofs.Step.Basic
import StepGlue.Proofs.Step.Match

/-!
# Steps without placeholders match in one way

Two counts pin the captures down from the left. A quoted group that ran over a quote would leave
too few quotes for the literal ones behind it. A number group that ran on over a digit of another
script would leave too few of those for the literal ones behind it.
-/

namespace StepGlue.Segment

open Regex Parameter

variable {digits : Digits} {segments : List Segment} {text : List Char}
  {captures : List (List Char)}

def NoPlaceholder (segments : List Segment) : Prop :=
  ∀ value, slot .placeholder value ∉ segments

theorem NoPlaceholder.tail {segment : Segment} (h : NoPlaceholder (segment :: segments)) :
    NoPlaceholder segments :=
  fun value hmem => h value (List.mem_cons_of_mem _ hmem)

theorem isWordChar_of_isDigit {c : Char} (h : c.isDigit) : isWordChar c := by
  simp [isWordChar, Char.isAlphanum, h]

/-! ### Counting quotes -/

theorem count_quote_of_isDigit {value : List Char} (h : ∀ c ∈ value, c.isDigit) :
    value.count '"' = 0 := by
  rw [List.count_eq_zero]
  intro hmem
  exact absurd (h _ hmem) (by decide)

/-- A match holds at least as many quotes as the segments, whose slots hold none. -/
theorem Fits.count_quote_le (h : Fits digits segments text captures) (hsettled : Settled segments)
    (hkinds : NoPlaceholder segments) : (textOf segments).count '"' ≤ text.count '"' := by
  induction h with
  | nil => exact le_rfl
  | literal hrest ih =>
    have hle := ih hsettled.2.2 hkinds.tail
    simp only [textOf_cons, source, List.count_append]
    omega
  | @quoted value segments inner rest captures hinner hrest ih =>
    have hle := ih hsettled.2 hkinds.tail
    have hvalue : value.count '"' = 0 := List.count_eq_zero.mpr hsettled.1
    simp only [textOf_cons, source, List.count_append, List.count_cons, List.count_nil]
    omega
  | @placeholder value segments inner rest captures hinner hrest ih =>
    exact absurd List.mem_cons_self (hkinds value)
  | @number value segments inner rest captures hne hinner hrest ih =>
    have hle := ih hsettled.2.2.2 hkinds.tail
    have hvalue := count_quote_of_isDigit hsettled.2.1
    simp only [textOf_cons, source, List.count_append]
    omega

/-- The two ways to put a quote behind a value without one agree. -/
theorem eq_of_append_quote {left right rest rest' : List Char} (hleft : '"' ∉ left)
    (hright : '"' ∉ right) (h : left ++ '"' :: rest = right ++ '"' :: rest') :
    left = right ∧ rest = rest' := by
  have hcut : cut? '"' (left ++ '"' :: rest) = some (left, rest) :=
    cut?_eq_some_iff.mpr ⟨rfl, hleft⟩
  have hcut' : cut? '"' (right ++ '"' :: rest') = some (right, rest') :=
    cut?_eq_some_iff.mpr ⟨rfl, hright⟩
  rw [h, hcut'] at hcut
  simpa [eq_comm] using hcut

theorem Fits.quoted_unique {value inner rest : List Char} (hvalue : '"' ∉ value)
    (hsettled : Settled segments) (hkinds : NoPlaceholder segments)
    (hrest : Fits digits segments rest captures)
    (htext : '"' :: inner ++ '"' :: rest = '"' :: value ++ '"' :: textOf segments) :
    inner = value ∧ rest = textOf segments := by
  have hcount := congrArg (List.count '"') htext
  have hle := hrest.count_quote_le hsettled hkinds
  have hzero : value.count '"' = 0 := List.count_eq_zero.mpr hvalue
  have hinner : '"' ∉ inner := by
    rw [← List.count_eq_zero]
    simp only [List.count_append, List.count_cons] at hcount
    omega
  have htail : inner ++ '"' :: rest = value ++ '"' :: textOf segments := by
    simpa using htext
  exact eq_of_append_quote hinner hvalue htail

/-! ### Counting what is no digit -/

/-- The characters other than digits among those at the start of a text that `admits` holds of. -/
def nonDigits (admits : Char → Bool) (text : List Char) : Nat :=
  (text.takeWhile admits).countP fun c => !c.isDigit

section NonDigits

variable {admits : Char → Bool}

theorem nonDigits_append {left : List Char} (h : ∀ c ∈ left, admits c) (right : List Char) :
    nonDigits admits (left ++ right) =
      left.countP (fun c => !c.isDigit) + nonDigits admits right := by
  rw [nonDigits, List.takeWhile_append_of_pos h, List.countP_append, nonDigits]

theorem takeWhile_append_of_not {left : List Char} (h : ¬∀ c ∈ left, admits c)
    (right : List Char) : (left ++ right).takeWhile admits = left.takeWhile admits := by
  have hshort : (left.takeWhile admits).length ≠ left.length := by
    intro hlength
    have heq := (List.takeWhile_prefix admits).eq_of_length hlength
    exact h (List.takeWhile_eq_self_iff.mp heq)
  rw [List.takeWhile_append, if_neg hshort]

theorem nonDigits_cons_of_not {c : Char} (h : ¬admits c) (rest : List Char) :
    nonDigits admits (c :: rest) = 0 := by
  rw [nonDigits, List.takeWhile_cons_of_neg h]
  rfl

theorem countP_eq_zero_of_isDigit {value : List Char} (h : ∀ c ∈ value, c.isDigit) :
    value.countP (fun c => !c.isDigit) = 0 := by
  rw [List.countP_eq_zero]
  intro c hc
  simp [h c hc]

/-- A match starts with at least as many as the segments, if the count stops at a quote and at a
placeholder and does not stop at a digit. -/
theorem Fits.nonDigits_le (h : Fits digits segments text captures) (hsettled : Settled segments)
    (hdigits : ∀ c, digits.admits c → admits c) (hquote : ¬admits '"')
    (hplaceholder : NoPlaceholder segments ∨ ¬admits '<') :
    nonDigits admits (textOf segments) ≤ nonDigits admits text := by
  induction h with
  | nil => exact le_rfl
  | @literal part segments rest captures hrest ih =>
    have hle := ih hsettled.2.2 (hplaceholder.imp_left NoPlaceholder.tail)
    rw [textOf_cons, source]
    by_cases hpart : ∀ c ∈ part, admits c
    · rw [nonDigits_append hpart, nonDigits_append hpart]
      omega
    · rw [nonDigits, nonDigits, takeWhile_append_of_not hpart, takeWhile_append_of_not hpart]
  | quoted hinner hrest ih =>
    rw [textOf_cons, source, List.cons_append, List.cons_append, nonDigits_cons_of_not hquote]
    exact Nat.zero_le _
  | @placeholder value segments inner rest captures hinner hrest ih =>
    rcases hplaceholder with hkinds | hangle
    · exact absurd List.mem_cons_self (hkinds value)
    · rw [textOf_cons, source, List.cons_append, List.cons_append, nonDigits_cons_of_not hangle]
      exact Nat.zero_le _
  | @number value segments inner rest captures hne hinner hrest ih =>
    have hle := ih hsettled.2.2.2 (hplaceholder.imp_left NoPlaceholder.tail)
    have hvalue : ∀ c ∈ value, admits c :=
      fun c hc => hdigits c (digits.admits_of_isDigit (hsettled.2.1 c hc))
    rw [textOf_cons, source, nonDigits_append hvalue,
      nonDigits_append fun c hc => hdigits c (hinner c hc),
      countP_eq_zero_of_isDigit hsettled.2.1]
    omega

end NonDigits

/-- No number group can take more than its number: what follows does not match the rest then. -/
theorem Fits.eq_nil_of_append_eq_textOf {more rest : List Char}
    (hrest : Fits digits segments rest captures) (hsettled : Settled segments)
    (hend : EndsWord (textOf segments)) (hmore : ∀ c ∈ more, digits.admits c)
    (htext : more ++ rest = textOf segments) : more = [] := by
  cases more with
  | nil => rfl
  | cons c more =>
    have hle := hrest.nonDigits_le hsettled (fun _ => id)
      (digits.not_admits_of_ascii (by decide) (by decide))
      (.inr (digits.not_admits_of_ascii (by decide) (by decide)))
    have hc : ¬c.isDigit := by
      rw [← htext, List.cons_append, endsWord_cons] at hend
      exact fun hdigit => hend (isWordChar_of_isDigit hdigit)
    rw [← htext, nonDigits_append hmore, List.countP_cons_of_pos (by simpa using hc)] at hle
    omega

/-! ### Uniqueness -/

/-- Every match starts like the text of the segments, where no placeholder and no number stands. -/
theorem Fits.head?_eq (h : Fits digits segments text captures) (hsettled : Settled segments)
    (hkinds : NoPlaceholder segments) (hend : EndsWord (textOf segments)) :
    text.head? = (textOf segments).head? := by
  cases h with
  | nil => rfl
  | @literal part segments rest captures hrest =>
    cases part with
    | nil => exact absurd rfl hsettled.1
    | cons c part => rfl
  | quoted hinner hrest => rfl
  | placeholder hinner hrest => exact absurd List.mem_cons_self (hkinds _)
  | @number value segments inner rest captures hne hinner hrest =>
    cases value with
    | nil => exact absurd rfl hsettled.1
    | cons c value =>
      rw [textOf_cons, source, List.cons_append, endsWord_cons] at hend
      exact absurd (isWordChar_of_isDigit (hsettled.2.1 c List.mem_cons_self)) hend

theorem Fits.number_unique {value inner rest : List Char} (hvalue : ∀ c ∈ value, c.isDigit)
    (hinner : ∀ c ∈ inner, digits.admits c) (hsettled : Settled segments)
    (hkinds : NoPlaceholder segments) (hend : EndsWord (textOf segments))
    (hrest : Fits digits segments rest captures)
    (htext : inner ++ rest = value ++ textOf segments) :
    inner = value ∧ rest = textOf segments := by
  rcases List.append_eq_append_iff.mp htext with ⟨more, rfl, rfl⟩ | ⟨more, rfl, hmore⟩
  · -- what the group leaves of the number would have to start the rest
    have hhead := hrest.head?_eq hsettled hkinds hend
    cases more with
    | nil => simp
    | cons c more =>
      have hc : c.isDigit := hvalue c (by simp)
      rw [List.cons_append, List.head?_cons] at hhead
      exact absurd (isWordChar_of_isDigit hc) (hend c hhead.symm)
  · have hnil := hrest.eq_nil_of_append_eq_textOf hsettled hend
      (fun c hc => hinner c (List.mem_append_right _ hc)) hmore.symm
    subst hnil
    exact ⟨by simp, hmore.symm⟩

/-- Without placeholders, the segments of a text match it with their values and in no other way. -/
theorem Fits.captures_unique (h : Fits digits segments (textOf segments) captures)
    (hsettled : Settled segments) (hkinds : NoPlaceholder segments) :
    captures = occurrences segments := by
  generalize htext : textOf segments = text at h
  induction h with
  | nil => rfl
  | literal hrest ih =>
    rw [textOf_cons, source, List.append_cancel_left_eq] at htext
    exact ih hsettled.2.2 hkinds.tail htext
  | @quoted value segments inner rest captures hinner hrest ih =>
    rw [textOf_cons, source, List.append_assoc, List.singleton_append] at htext
    obtain ⟨rfl, rfl⟩ :=
      hrest.quoted_unique hsettled.1 hsettled.2 hkinds.tail htext.symm
    rw [ih hsettled.2 hkinds.tail rfl]
    rfl
  | placeholder hinner hrest ih => exact absurd List.mem_cons_self (hkinds _)
  | @number value segments inner rest captures hne hinner hrest ih =>
    rw [textOf_cons, source] at htext
    obtain ⟨-, hvalue, hend, hsettled⟩ := hsettled
    obtain ⟨rfl, rfl⟩ :=
      hrest.number_unique hvalue hinner hsettled hkinds.tail hend htext.symm
    rw [ih hsettled hkinds.tail rfl]
    rfl

end StepGlue.Segment

namespace StepGlue.Step

open Regex

/-- Whatever an engine tries first, the groups of a step without placeholders capture the values of
its parameters. -/
theorem matches_iff_values (digits : Digits) {line : String} {step : Step}
    (h : parse? line = some step) (hkinds : ∀ p ∈ step.parameters, p.kind ≠ .placeholder) :
    ∃ regex, read? step.anchoredPattern.toList = some regex ∧
      ∀ captures rest, Matches digits [] regex step.text.toList captures rest ↔
        captures = step.parameters.map (fun p => p.value.toList) ∧ rest = [] := by
  have hread := isRead_of_parse? h
  have hsettled := Segment.settled_scan step.text.toList
  have hvalues : step.parameters.map (fun p => p.value.toList) =
      Segment.occurrences step.segments := by
    rw [← hread.map_occurrence_parameters]
    apply List.map_congr_left
    intro p hp
    cases hkind : p.kind with
    | placeholder => exact absurd hkind (hkinds p hp)
    | quoted | number => simp [Parameter.occurrence, hkind]
  have hnone : Segment.NoPlaceholder step.segments := by
    intro value hmem
    have hkind : Parameter.Kind.placeholder ∈ step.segments.filterMap Segment.kind? :=
      List.mem_filterMap.mpr ⟨_, hmem, rfl⟩
    rw [← hread.map_kind_parameters] at hkind
    obtain ⟨p, hp, hplaceholder⟩ := List.mem_map.mp hkind
    exact hkinds p hp hplaceholder
  refine ⟨_, hread.read?_anchoredPattern, fun captures rest => ?_⟩
  rw [Segment.matches_anchored_iff hread.one_line, hvalues, ← hread.textOf_segments]
  constructor
  · rintro ⟨rfl, hfits⟩
    exact ⟨hfits.captures_unique hsettled hnone, rfl⟩
  · rintro ⟨rfl, rfl⟩
    refine ⟨rfl, hsettled.fits digits ?_⟩
    rw [Segment.textOf_scan]
    exact hread.one_line

/-- The literal text between the values repeats them, and a quote has no partner. -/
theorem matches_iff_values_of_repeated_text :
    ∃ step, parse? "When 1, 1 \"a, 1 \" \"\" 12\"" = some step ∧
      (∀ p ∈ step.parameters, p.kind ≠ .placeholder) ∧
      step.parameters.map Parameter.value = ["1", "1", "a, 1 ", "", "12"] ∧
      ∃ regex, read? step.anchoredPattern.toList = some regex ∧
        ∀ captures rest, Matches .decimal [] regex step.text.toList captures rest ↔
          captures = step.parameters.map (fun p => p.value.toList) ∧ rest = [] := by
  have hparameters : (parse? "When 1, 1 \"a, 1 \" \"\" 12\"").map
      (fun step => step.parameters.map fun p => (p.kind, p.value)) =
        some [(.number, "1"), (.number, "1"), (.quoted, "a, 1 "), (.quoted, ""),
          (.number, "12")] := by
    decide +kernel
  obtain ⟨step, hstep, hpairs⟩ := Option.map_eq_some_iff.mp hparameters
  have hkinds : ∀ p ∈ step.parameters, p.kind ≠ .placeholder := by
    intro p hp
    have hpair := List.mem_map_of_mem (f := fun p : Parameter => (p.kind, p.value)) hp
    rw [hpairs] at hpair
    rintro hkind
    simp [hkind] at hpair
  have hvalues := congrArg (List.map Prod.snd) hpairs
  rw [List.map_map] at hvalues
  exact ⟨step, hstep, hkinds, hvalues, matches_iff_values .decimal hstep hkinds⟩

end StepGlue.Step
