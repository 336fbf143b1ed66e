import StepGlue.Proofs.Step.FirstMatch

/-!
# Where placeholders run on

Whether the rest of a text matches once more further right is a question about all of the rest.
Here it is brought down to what stands next to a placeholder: the text up to the next placeholder,
or a number that follows directly.
-/

namespace StepGlue.Segment

open Regex Parameter

variable {digits : Digits} {segments : List Segment} {text : List Char}
  {captures : List (List Char)}

theorem Fits.append {later : List Segment} {text' : List Char} {captures' : List (List Char)}
    (h : Fits digits segments text captures) (hlater : Fits digits later text' captures') :
    Fits digits (segments ++ later) (text ++ text') (captures ++ captures') := by
  induction h with
  | nil => exact hlater
  | literal hrest ih =>
    rw [List.append_assoc]
    exact .literal ih
  | @quoted value segments inner rest captures hinner hrest ih =>
    have hfits : Fits digits (slot .quoted value :: (segments ++ later))
        ('"' :: inner ++ '"' :: (rest ++ text')) (inner :: (captures ++ captures')) :=
      .quoted hinner ih
    simpa using hfits
  | placeholder hinner hrest ih =>
    rw [List.append_assoc]
    exact .placeholder hinner ih
  | number hne hinner hrest ih =>
    rw [List.append_assoc]
    exact .number hne hinner ih

theorem exists_fits_of_append {later : List Segment}
    (h : Fits digits (segments ++ later) text captures) :
    ∃ first tail captures₁ captures₂, text = first ++ tail ∧ Fits digits segments first captures₁ ∧
      Fits digits later tail captures₂ := by
  induction segments generalizing text captures with
  | nil => exact ⟨[], text, [], captures, rfl, .nil, h⟩
  | cons segment segments ih =>
    cases h with
    | @literal part _ rest _ hrest =>
      obtain ⟨first, tail, captures₁, captures₂, rfl, hfirst, htail⟩ := ih hrest
      exact ⟨part ++ first, tail, _, _, by simp, .literal hfirst, htail⟩
    | @quoted _ _ inner rest _ hinner hrest =>
      obtain ⟨first, tail, captures₁, captures₂, rfl, hfirst, htail⟩ := ih hrest
      exact ⟨'"' :: inner ++ '"' :: first, tail, _, _, by simp, .quoted hinner hfirst, htail⟩
    | @placeholder _ _ inner rest _ hinner hrest =>
      obtain ⟨first, tail, captures₁, captures₂, rfl, hfirst, htail⟩ := ih hrest
      exact ⟨inner ++ first, tail, _, _, by simp, .placeholder hinner hfirst, htail⟩
    | @number _ _ inner rest _ hne hinner hrest =>
      obtain ⟨first, tail, captures₁, captures₂, rfl, hfirst, htail⟩ := ih hrest
      exact ⟨inner ++ first, tail, _, _, by simp, .number hne hinner hfirst, htail⟩

theorem Settled.of_append {later : List Segment} (h : Settled (segments ++ later)) :
    Settled later := by
  induction segments with
  | nil => exact h
  | cons segment segments ih =>
    match segment with
    | literal text => exact ih h.2.2
    | slot .quoted value => exact ih h.2
    | slot .placeholder value => exact ih h
    | slot .number value => exact ih h.2.2.2

/-! ### After the last placeholder -/

/-- What can be skipped before another match of segments without placeholders is digits. -/
theorem isDigit_of_resumes {more tail : List Char} (hsettled : Settled segments)
    (hkinds : NoPlaceholder segments) (htext : textOf segments = more ++ tail)
    (hfits : Fits digits segments tail captures) : ∀ c ∈ more, c.isDigit := by
  have hquotes := hfits.count_quote_le hsettled hkinds
  rw [htext, List.count_append] at hquotes
  have hmore : ∀ c ∈ more, (c != '"') = true := by
    intro c hc
    have hzero : more.count '"' = 0 := by omega
    rw [bne_iff_ne]
    rintro rfl
    exact List.count_eq_zero.mp hzero hc
  have hadmits : ∀ c, digits.admits c → (c != '"') = true := by
    intro c hc
    rw [bne_iff_ne]
    rintro rfl
    exact digits.not_admits_of_ascii (by decide) (by decide) hc
  have hle := hfits.nonDigits_le hsettled hadmits (by decide) (.inl hkinds)
  rw [htext, nonDigits_append hmore] at hle
  have hzero : more.countP (fun c => !c.isDigit) = 0 := by omega
  intro c hc
  simpa using List.countP_eq_zero.mp hzero c hc

/-- Segments without placeholders match again further right only if they start with a number that
can give up its first digit. -/
theorem Resumes.exists_number (h : Resumes digits segments) (hsettled : Settled segments)
    (hkinds : NoPlaceholder segments) :
    ∃ value later, segments = slot .number value :: later ∧ 2 ≤ value.length := by
  obtain ⟨more, tail, captures, htext, hne, hfits⟩ := h
  have hmore := isDigit_of_resumes hsettled hkinds htext hfits
  obtain ⟨c, more, rfl⟩ := List.exists_cons_of_ne_nil hne
  have hc : c.isDigit := hmore c List.mem_cons_self
  cases hfits with
  | nil => exact absurd htext (by simp)
  | @literal part later rest _ hrest =>
    -- the number that opens the literal text would be longer than itself
    have hstart : ∃ d ∈ part, ¬d.isDigit := by
      cases part with
      | nil => exact absurd rfl hsettled.1
      | cons b part =>
        rw [textOf_cons, source, List.cons_append, List.cons_append, List.cons.injEq] at htext
        have hword : isWordChar b := isWordChar_of_isDigit (htext.1 ▸ hc)
        obtain ⟨d, hd, hdigit⟩ := hsettled.2.1 hword
        exact ⟨d, (List.takeWhile_prefix _).subset hd, hdigit⟩
    have hnot : ¬∀ d ∈ part, d.isDigit := by
      obtain ⟨d, hd, hdigit⟩ := hstart
      exact fun hall => hdigit (hall d hd)
    have hlength := congrArg (fun text => (text.takeWhile Char.isDigit).length) htext
    simp only [textOf_cons, source] at hlength
    rw [takeWhile_append_of_not hnot, List.takeWhile_append_of_pos hmore,
      takeWhile_append_of_not hnot, List.length_append, List.length_cons] at hlength
    omega
  | quoted hinner hrest =>
    rw [textOf_cons, source, List.cons_append, List.cons_append, List.cons_append,
      List.cons.injEq] at htext
    exact absurd (htext.1 ▸ hc) (by decide)
  | @placeholder value later inner rest _ hinner hrest =>
    exact absurd List.mem_cons_self (hkinds value)
  | @number value later inner rest captures' hinnerNe hinner hrest =>
    obtain ⟨hvalueNe, hvalue, hend, hsettled⟩ := hsettled
    refine ⟨value, later, rfl, ?_⟩
    by_contra hshort
    obtain ⟨b, rfl⟩ : ∃ b, value = [b] := by
      rw [← List.length_eq_one_iff]
      have := List.length_pos_of_ne_nil hvalueNe
      omega
    rw [textOf_cons, source, List.singleton_append, List.cons_append, List.cons.injEq] at htext
    obtain ⟨rfl, htext⟩ := htext
    have hnil : more = [] := by
      cases more with
      | nil => rfl
      | cons d more =>
        rw [htext, List.cons_append, endsWord_cons] at hend
        have hd : d.isDigit := hmore d (by simp)
        exact absurd (isWordChar_of_isDigit hd) hend
    subst hnil
    exact hinnerNe (hrest.eq_nil_of_append_eq_textOf hsettled hend hinner htext.symm)

theorem resumes_of_number {value : List Char} {later : List Segment}
    (hsettled : Settled (slot .number value :: later)) (hline : '\n' ∉ textOf later)
    (hlength : 2 ≤ value.length) : Resumes digits (slot .number value :: later) := by
  obtain ⟨-, hvalue, -, hlater⟩ := hsettled
  match value, hlength with
  | c :: d :: value, _ =>
    have hfits : Fits digits (slot .number (c :: d :: value) :: later)
        ((d :: value) ++ textOf later) ((d :: value) :: occurrences later) :=
      .number (by simp)
        (fun b hb => digits.admits_of_isDigit (hvalue b (List.mem_cons_of_mem _ hb)))
        (hlater.fits digits hline)
    exact ⟨[c], _, _, rfl, by simp, hfits⟩

/-! ### Between neighbouring placeholders -/

/-- Whether the segments also match further right in their text and some text after it. -/
def Recurs (digits : Digits) (segments : List Segment) (after : List Char) : Prop :=
  ∃ skipped again left captures, textOf segments ++ after = skipped ++ (again ++ left) ∧
    skipped ≠ [] ∧ Fits digits segments again captures

theorem Recurs.resumes {between later : List Segment} {value : List Char}
    (h : Recurs digits between (source (slot .placeholder value))) (hsettled : Settled later)
    (hline : '\n' ∉ textOf (between ++ slot .placeholder value :: later)) :
    Resumes digits (between ++ slot .placeholder value :: later) := by
  obtain ⟨skipped, again, left, captures, htext, hskipped, hfits⟩ := h
  have hwhole : textOf (between ++ slot .placeholder value :: later) =
      skipped ++ (again ++ (left ++ textOf later)) := by
    rw [textOf_append, textOf_cons, ← List.append_assoc, htext]
    simp
  rw [hwhole] at hline
  have hlater : '\n' ∉ textOf later := fun hmem => hline (by simp [hmem])
  have hleft : '\n' ∉ left := fun hmem => hline (by simp [hmem])
  have hplaceholder : Fits digits (slot .placeholder value :: later) (left ++ textOf later)
      (left :: occurrences later) :=
    .placeholder hleft (hsettled.fits digits hlater)
  exact ⟨skipped, _, _, hwhole, hskipped, hfits.append hplaceholder⟩

theorem Resumes.recurs_or_resumes {between later : List Segment} {value : List Char}
    (h : Resumes digits (between ++ slot .placeholder value :: later)) :
    Recurs digits between (source (slot .placeholder value)) ∨ Resumes digits later := by
  obtain ⟨more, tail, captures, htext, hmore, hfits⟩ := h
  obtain ⟨again, tail, captures₁, captures₂, rfl, hagain, htail⟩ := exists_fits_of_append hfits
  cases htail with
  | @placeholder _ _ left tail captures' hleft hlater =>
    have hsplit : (textOf between ++ source (slot .placeholder value)) ++ textOf later =
        (more ++ (again ++ left)) ++ tail := by
      rw [textOf_append, textOf_cons] at htext
      rw [List.append_assoc, htext]
      simp
    rcases List.append_eq_append_iff.mp hsplit with ⟨extra, hfirst, hrest⟩ | ⟨extra, hfirst, -⟩
    · cases extra with
      | nil =>
        rw [List.append_nil] at hfirst
        exact .inl ⟨more, again, left, captures₁, hfirst.symm, hmore, hagain⟩
      | cons c extra => exact .inr ⟨c :: extra, tail, captures', hrest, by simp, hlater⟩
    · refine .inl ⟨more, again, left ++ extra, captures₁, ?_, hmore, hagain⟩
      rw [hfirst]
      simp

/-- A placeholder is not followed directly by a number of two digits or more, and the text between
two neighbouring placeholders does not come up again before the second one ends. -/
structure PlaceholdersApart (digits : Digits) (segments : List Segment) : Prop where
  number : ∀ {earlier value number later},
    segments = earlier ++ slot .placeholder value :: slot .number number :: later →
      number.length = 1
  between : ∀ {earlier value between value' later},
    segments = earlier ++ slot .placeholder value ::
        (between ++ slot .placeholder value' :: later) →
      NoPlaceholder between → ¬Recurs digits between (source (slot .placeholder value'))

theorem noPlaceholder_or_split (segments : List Segment) :
    NoPlaceholder segments ∨ ∃ between value later,
      segments = between ++ slot .placeholder value :: later ∧ NoPlaceholder between := by
  induction segments with
  | nil => exact .inl fun value hmem => absurd hmem (by simp)
  | cons segment segments ih =>
    by_cases hsegment : ∃ value, segment = slot .placeholder value
    · obtain ⟨value, rfl⟩ := hsegment
      exact .inr ⟨[], value, segments, rfl, fun value hmem => absurd hmem (by simp)⟩
    · have hcons : ∀ {others}, NoPlaceholder others → NoPlaceholder (segment :: others) := by
        intro others hothers value hmem
        rcases List.mem_cons.mp hmem with heq | hmem
        · exact hsegment ⟨value, heq.symm⟩
        · exact hothers value hmem
      rcases ih with hnone | ⟨between, value, later, rfl, hbetween⟩
      · exact .inl (hcons hnone)
      · exact .inr ⟨segment :: between, value, later, rfl, hcons hbetween⟩

theorem noneResumes_iff : NoneResumes digits segments ↔
    ∀ earlier value later, segments = earlier ++ slot .placeholder value :: later →
      ¬Resumes digits later := by
  induction segments with
  | nil => simp [NoneResumes]
  | cons segment segments ih =>
    have hlater : (∀ earlier value later,
        segment :: segments = earlier ++ slot .placeholder value :: later →
          ¬Resumes digits later) ↔
        (∀ value, segment = slot .placeholder value → ¬Resumes digits segments) ∧
          NoneResumes digits segments := by
      rw [ih]
      constructor
      · intro h
        refine ⟨fun value hsegment => h [] value segments (by rw [hsegment]; rfl), ?_⟩
        intro earlier value later hsegments
        exact h (segment :: earlier) value later (by rw [hsegments]; rfl)
      · rintro ⟨hfirst, hrest⟩ earlier value later hsegments
        cases earlier with
        | nil =>
          obtain ⟨hsegment, rfl⟩ := List.cons.inj hsegments
          exact hfirst value hsegment
        | cons first earlier => exact hrest earlier value later (List.cons.inj hsegments).2
    rw [hlater]
    match segment with
    | literal text => simp [NoneResumes]
    | slot .quoted value => simp [NoneResumes]
    | slot .placeholder value => simp [NoneResumes]
    | slot .number value => simp [NoneResumes]

/-- By recursion from placeholder to placeholder: a match further right either repeats what stands
before the next placeholder, or is one behind it. -/
theorem PlaceholdersApart.not_resumes (h : PlaceholdersApart digits segments)
    (hsettled : Settled segments) (earlier : List Segment)
    (value : List Char) (later : List Segment)
    (hsegments : segments = earlier ++ slot .placeholder value :: later) :
    ¬Resumes digits later := by
  intro hresumes
  rcases noPlaceholder_or_split later with hnone | ⟨between, value', rest, rfl, hbetween⟩
  · have hlater : Settled later := (hsegments ▸ hsettled).of_append
    obtain ⟨number, later, rfl, hlength⟩ := hresumes.exists_number hlater hnone
    have hone := h.number hsegments
    omega
  · rcases hresumes.recurs_or_resumes with hrecurs | hrest
    · exact h.between hsegments hbetween hrecurs
    · exact h.not_resumes hsettled (earlier ++ slot .placeholder value :: between) value' rest
        (by simp [hsegments]) hrest
termination_by later.length
decreasing_by
  subst later
  simp
  omega

theorem noneResumes_iff_placeholdersApart (hsettled : Settled segments)
    (hline : '\n' ∉ textOf segments) :
    NoneResumes digits segments ↔ PlaceholdersApart digits segments := by
  have hlater : ∀ {earlier : List Segment} {value : List Char} {later : List Segment},
      segments = earlier ++ slot .placeholder value :: later →
        Settled later ∧ '\n' ∉ textOf later := by
    rintro earlier value later rfl
    refine ⟨hsettled.of_append, fun hmem => hline ?_⟩
    rw [textOf_append, textOf_cons]
    exact List.mem_append_right _ (List.mem_append_right _ hmem)
  rw [noneResumes_iff]
  constructor
  · intro h
    constructor
    · intro earlier value number later hsegments
      obtain ⟨hnumber, hnumberLine⟩ := hlater hsegments
      rw [textOf_cons, List.mem_append, not_or] at hnumberLine
      have hpos := List.length_pos_of_ne_nil hnumber.1
      by_contra hlength
      have htwo : 2 ≤ number.length := by omega
      exact h _ _ _ hsegments (resumes_of_number hnumber hnumberLine.2 htwo)
    · intro earlier value between value' later hsegments _ hrecurs
      obtain ⟨hbetween, hbetweenLine⟩ := hlater hsegments
      exact h _ _ _ hsegments (hrecurs.resumes hbetween.of_append hbetweenLine)
  · exact fun h => h.not_resumes hsettled

end StepGlue.Segment

namespace StepGlue.Step

open Regex

theorem first?_anchoredRegex_eq_some_iff {digits : Digits} {segments : List Segment}
    {text : List Char} {captures : List (List Char)} (hline : '\n' ∉ text) :
    first? digits (Segment.anchoredRegex segments) text = some captures ↔
      Segment.FoundFirst digits [] segments text captures := by
  have hsearch : search digits [] (Segment.anchoredRegex segments) text =
      search digits [] (Segment.regex segments ++ [.finish]) text := by
    rw [Segment.anchoredRegex, List.cons_append, search, if_pos rfl]
  rw [first?, hsearch, Segment.FoundFirst, Option.map_eq_some_iff]
  constructor
  · rintro ⟨⟨captures, rest⟩, hhead, rfl⟩
    have hmatches := mem_search_iff.mp (List.mem_of_mem_head? hhead)
    obtain ⟨rfl, -⟩ := (Segment.matches_regex_finish_iff hline).mp hmatches
    exact hhead
  · exact fun hhead => ⟨_, hhead, rfl⟩

/-- The first match of the anchored pattern captures the parameters of the step exactly if its
placeholders are apart. -/
theorem first?_eq_occurrences_iff (digits : Digits) {line : String} {step : Step}
    (h : parse? line = some step) :
    ∃ regex, read? step.anchoredPattern.toList = some regex ∧
      (first? digits regex step.text.toList = some (step.parameters.map Parameter.occurrence) ↔
        Segment.PlaceholdersApart digits step.segments) := by
  have hread := isRead_of_parse? h
  have hsettled : Segment.Settled step.segments := Segment.settled_scan _
  have hline : '\n' ∉ Segment.textOf step.segments := by
    rw [hread.textOf_segments]
    exact hread.one_line
  refine ⟨_, hread.read?_anchoredPattern, ?_⟩
  rw [first?_anchoredRegex_eq_some_iff hread.one_line, hread.map_occurrence_parameters,
    ← hread.textOf_segments, hsettled.foundFirst_iff hline,
    Segment.noneResumes_iff_placeholdersApart hsettled hline]

/-- A placeholder, a number and a quoted placeholder, none of which follow each other directly. -/
theorem first?_eq_occurrences_of_separate_parameters :
    ∃ step, parse? "When <user> pays 20 for \"<item>\"" = some step ∧
      ∃ regex, read? step.anchoredPattern.toList = some regex ∧
        first? .decimal regex step.text.toList = some (step.parameters.map Parameter.occurrence) ∧
        Segment.PlaceholdersApart .decimal step.segments := by
  have hfirst : (parse? "When <user> pays 20 for \"<item>\"").map (fun step =>
      decide (((read? step.anchoredPattern.toList).bind fun regex =>
          first? .decimal regex step.text.toList) =
        some (step.parameters.map Parameter.occurrence))) = some true := by
    decide +kernel
  obtain ⟨step, hstep, hdecided⟩ := Option.map_eq_some_iff.mp hfirst
  have hcaptures := of_decide_eq_true hdecided
  obtain ⟨regex, hregex, hiff⟩ := first?_eq_occurrences_iff .decimal hstep
  rw [hregex, Option.bind_some] at hcaptures
  exact ⟨step, hstep, regex, hregex, hcaptures, hiff.mp hcaptures⟩

/-- The first of two placeholders takes the space between them along. -/
theorem first?_of_neighbouring_placeholders :
    ((parse? "When I enter <first name> <last name>").bind fun step =>
        (read? step.anchoredPattern.toList).bind fun regex =>
          first? .decimal regex step.text.toList) =
      some ["<first name> <last".toList, "name>".toList] ∧
    (parse? "When I enter <first name> <last name>").map (fun step =>
        step.parameters.map Parameter.occurrence) =
      some ["<first name>".toList, "<last name>".toList] := by
  decide +kernel

end StepGlue.Step
