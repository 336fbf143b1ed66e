import StepGlue.Proofs.Step.Delimited
import StepGlue.Proofs.Step.Word

/-!
# The spans of the parameters

Which stretches of a step text are parameters is told on the text as it is, without segments: the
quotes are counted from the left, placeholders are looked for between the quoted spans, and numbers
are the words of digits apart from both. Main statement: the parameters of a scan are those of
exactly these spans, in the order in which they start (`parameters_scan_eq_spans`).
-/

namespace StepGlue.Segment

open Parameter

/-- A place in a text where a parameter of the kind may be spelled. -/
structure Span where
  kind : Kind
  before : List Char
  value : List Char
  after : List Char
deriving DecidableEq, Repr

namespace Span

/-- The value with its delimiters. -/
def source (span : Span) : List Char :=
  (slot span.kind span.value).source

def start (span : Span) : Nat :=
  span.before.length

def stop (span : Span) : Nat :=
  span.start + span.source.length

/-- Counted from the left, the quote that opens the span is an odd one, and the quote that closes it
is the next. -/
structure IsQuoted (text : List Char) (span : Span) : Prop where
  kind_eq : span.kind = .quoted
  text_eq : text = span.before ++ span.source ++ span.after
  even_count : Even (span.before.count '"')
  quote_notMem : '"' ∉ span.value

/-- A longest stretch of a text outside the quoted spans. -/
structure IsUnquoted (text before stretch after : List Char) : Prop where
  text_eq : text = before ++ stretch ++ after
  apart : ∀ {span}, IsQuoted text span →
    span.stop ≤ before.length ∨ before.length + stretch.length ≤ span.start
  starts : before = [] ∨ ∃ span, IsQuoted text span ∧ span.stop = before.length
  stops : after = [] ∨ ∃ span, IsQuoted text span ∧ span.start = before.length + stretch.length

/-- A search from the front of an unquoted stretch comes to the bracket that opens the span, and the
span ends at the next bracket that closes. No search comes past an opening bracket that is not
closed in its stretch, and there is nothing to be found behind it. -/
structure IsPlaceholder (text : List Char) (span : Span) : Prop where
  kind_eq : span.kind = .placeholder
  reaches : ∃ before stretch after passed left, IsUnquoted text before stretch after ∧
    Reaches '<' '>' stretch passed (span.source ++ left) ∧
    span.before = before ++ passed ∧ span.after = left ++ after
  bracket_notMem : '>' ∉ span.value

/-- A word of digits outside the quoted spans and the placeholders. -/
structure IsNumber (text : List Char) (span : Span) : Prop where
  kind_eq : span.kind = .number
  isWord : IsWord text span.before span.value span.after
  isDigit : ∀ c ∈ span.value, c.isDigit
  apart : ∀ {other}, IsQuoted text other ∨ IsPlaceholder text other →
    other.stop ≤ span.start ∨ span.stop ≤ other.start

/-- One of the slots was cut out of the text where the span is. -/
def StandsIn (span : Span) (segments : List Segment) : Prop :=
  StandsAt segments span.before (slot span.kind span.value) span.after

end Span

variable {text before stretch after : List Char} {span : Span}

/-! ### Quoted spans and the stretches between them -/

def quotedSegments (text : List Char) : List Segment :=
  delimited .quoted '"' '"' text

theorem textOf_quotedSegments (text : List Char) : textOf (quotedSegments text) = text :=
  textOf_delimited (fun _ => rfl) text

theorem standsIn_quotedSegments : span.StandsIn (quotedSegments text) ↔ span.IsQuoted text := by
  rw [Span.StandsIn, quotedSegments, standsAt_delimited fun _ => rfl, reaches_quote_iff]
  constructor
  · rintro ⟨hkind, hquote, htext, heven⟩
    exact ⟨hkind, by simp [Span.source, hkind, source, htext], heven, hquote⟩
  · rintro ⟨hkind, htext, heven, hquote⟩
    exact ⟨hkind, hquote, by simpa [Span.source, hkind, source] using htext, heven⟩

theorem isUnquoted_of_standsAt
    (h : StandsAt (quotedSegments text) before (literal stretch) after) :
    Span.IsUnquoted text before stretch after where
  text_eq := by rw [← textOf_quotedSegments text, h.textOf_eq]; rfl
  apart := by
    intro span hspan
    rcases h.apart (standsIn_quotedSegments.mpr hspan) with ⟨heq, -⟩ | happart
    · exact absurd heq (by simp)
    · exact happart.symm
  starts := by
    refine h.literal_delimited.1.imp_right ?_
    rintro ⟨earlier, kind, value, hslot, rfl⟩
    refine ⟨⟨kind, earlier, value, _⟩, standsIn_quotedSegments.mp hslot, ?_⟩
    simp [Span.stop, Span.start, Span.source]
  stops := by
    refine h.literal_delimited.2.imp_right ?_
    rintro ⟨kind, value, later, hslot, rfl⟩
    refine ⟨⟨kind, _, value, later⟩, standsIn_quotedSegments.mp hslot, ?_⟩
    simp [Span.start]

theorem Span.IsQuoted.start_lt_stop (h : span.IsQuoted text) : span.start < span.stop := by
  simp [stop, Span.source, h.kind_eq, Segment.source]

/-- Unquoted stretches do not overlap. -/
theorem Span.IsUnquoted.eq_of_overlap {before' stretch' after' : List Char}
    (h : IsUnquoted text before stretch after) (h' : IsUnquoted text before' stretch' after')
    (hle : before'.length ≤ before.length)
    (hlt : before.length < before'.length + stretch'.length) :
    before = before' ∧ stretch = stretch' ∧ after = after' := by
  have htext : before ++ (stretch ++ after) = before' ++ (stretch' ++ after') := by
    rw [← List.append_assoc, ← List.append_assoc, ← h.text_eq, h'.text_eq]
  have hstart : before.length = before'.length := by
    rcases h.starts with rfl | ⟨span, hspan, hstop⟩
    · exact (Nat.le_zero.mp hle).symm
    · have hpos := hspan.start_lt_stop
      have hapart := h'.apart hspan
      omega
  obtain ⟨rfl, hrest⟩ := List.append_inj htext hstart
  have hlength : stretch.length = stretch'.length := by
    have hsum := congrArg List.length hrest
    simp only [List.length_append] at hsum
    apply Nat.le_antisymm
    · rcases h'.stops with rfl | ⟨span, hspan, hstart⟩
      · simp at hsum
        omega
      · have hpos := hspan.start_lt_stop
        have hapart := h.apart hspan
        omega
    · rcases h.stops with rfl | ⟨span, hspan, hstart⟩
      · simp at hsum
        omega
      · have hpos := hspan.start_lt_stop
        have hapart := h'.apart hspan
        omega
  obtain ⟨rfl, rfl⟩ := List.append_inj hrest hlength
  exact ⟨rfl, rfl, rfl⟩

theorem standsAt_of_isUnquoted (h : Span.IsUnquoted text before stretch after)
    (hne : stretch ≠ []) : StandsAt (quotedSegments text) before (literal stretch) after := by
  obtain ⟨c, rest, rfl⟩ := List.exists_cons_of_ne_nil hne
  have htext : textOf (quotedSegments text) = before ++ c :: (rest ++ after) := by
    rw [textOf_quotedSegments, h.text_eq]
    simp
  obtain ⟨outer, segment, outer', hstands, hle, hlt⟩ := exists_standsAt_of_textOf_eq htext
  match segment with
  | slot kind value =>
    have hquoted : Span.IsQuoted text ⟨kind, outer, value, outer'⟩ :=
      standsIn_quotedSegments.mp hstands
    have hapart : outer.length + (slot kind value).source.length ≤ before.length ∨
        before.length + (rest.length + 1) ≤ outer.length := h.apart hquoted
    omega
  | literal found =>
    obtain ⟨rfl, rfl, rfl⟩ := h.eq_of_overlap (isUnquoted_of_standsAt hstands) hle hlt
    exact hstands

/-! ### Placeholders -/

def placeholderSegments (text : List Char) : List Segment :=
  (quotedSegments text).flatMap (refine (delimited .placeholder '<' '>'))

theorem textOf_placeholderSegments (text : List Char) :
    textOf (placeholderSegments text) = text := by
  rw [placeholderSegments, textOf_flatMap_refine (textOf_delimited fun _ => rfl),
    textOf_quotedSegments]

theorem standsIn_placeholderSegments :
    span.StandsIn (placeholderSegments text) ↔ span.IsQuoted text ∨ span.IsPlaceholder text := by
  rw [Span.StandsIn, placeholderSegments, standsAt_flatMap_refine (textOf_delimited fun _ => rfl),
    ← Span.StandsIn, standsIn_quotedSegments]
  refine or_congr (and_iff_right rfl) ?_
  constructor
  · rintro ⟨outer, stretch, outer', inner, inner', hliteral, hslot, hbefore, hafter⟩
    obtain ⟨hkind, hbracket, hreaches⟩ := (standsAt_delimited fun _ => rfl).mp hslot
    refine ⟨hkind, ⟨outer, stretch, outer', inner, inner', isUnquoted_of_standsAt hliteral, ?_,
      hbefore, hafter⟩, hbracket⟩
    simpa [Span.source, hkind, source] using hreaches
  · rintro ⟨hkind, ⟨outer, stretch, outer', inner, inner', hunquoted, hreaches, hbefore, hafter⟩,
      hbracket⟩
    have hsource : span.source = '<' :: span.value ++ ['>'] := by
      rw [Span.source, hkind, source]
    have hne : stretch ≠ [] := by
      simp [hreaches.text_eq, hsource]
    refine ⟨outer, stretch, outer', inner, inner', standsAt_of_isUnquoted hunquoted hne,
      (standsAt_delimited fun _ => rfl).mpr ⟨hkind, hbracket, ?_⟩, hbefore, hafter⟩
    simpa [hsource] using hreaches

theorem word_ends_of_standsAt_delimited {kind : Kind} {opening closing : Char}
    (hsource : ∀ value, source (slot kind value) = opening :: value ++ [closing])
    (hopening : ¬isWordChar opening) (hclosing : ¬isWordChar closing)
    (h : StandsAt (delimited kind opening closing text) before (literal stretch) after) :
    StartsWord before ∧ EndsWord after := by
  constructor
  · rcases h.literal_delimited.1 with rfl | ⟨earlier, kind', value, hslot, rfl⟩
    · exact startsWord_nil
    · obtain ⟨rfl, -⟩ := (standsAt_delimited hsource).mp hslot
      rw [hsource, ← List.append_assoc, startsWord_concat]
      exact hclosing
  · rcases h.literal_delimited.2 with rfl | ⟨kind', value, later, hslot, rfl⟩
    · exact endsWord_nil
    · obtain ⟨rfl, -⟩ := (standsAt_delimited hsource).mp hslot
      rw [hsource]
      exact endsWord_cons.mpr hopening

/-- No word goes on beyond the ends of a literal that is left when the placeholders are found. -/
theorem word_ends_of_standsAt
    (h : StandsAt (placeholderSegments text) before (literal stretch) after) :
    StartsWord before ∧ EndsWord after := by
  rw [placeholderSegments, standsAt_flatMap_refine (textOf_delimited fun _ => rfl)] at h
  rcases h with ⟨hslot, -⟩ | ⟨outer, unquoted, outer', inner, inner', houter, hinner, rfl, rfl⟩
  · exact absurd hslot (by simp [kind?])
  · obtain ⟨hbefore, hafter⟩ :=
      word_ends_of_standsAt_delimited (fun _ => rfl) (by decide) (by decide) houter
    obtain ⟨hbefore', hafter'⟩ :=
      word_ends_of_standsAt_delimited (fun _ => rfl) (by decide) (by decide) hinner
    exact ⟨hbefore.append hbefore', hafter'.append hafter⟩

/-! ### Numbers -/

theorem standsIn_scan : span.StandsIn (scan text) ↔
    span.IsQuoted text ∨ span.IsPlaceholder text ∨ span.IsNumber text := by
  have hscan : scan text = (placeholderSegments text).flatMap (refine numbers) := rfl
  rw [Span.StandsIn, hscan, standsAt_flatMap_refine textOf_numbers, ← Span.StandsIn,
    standsIn_placeholderSegments, ← or_assoc]
  refine or_congr (and_iff_right rfl) ?_
  constructor
  · rintro ⟨outer, stretch, outer', inner, inner', hliteral, hslot, hbefore, hafter⟩
    obtain ⟨hkind, hword, hdigits⟩ := standsAt_numbers.mp hslot
    obtain ⟨hstarts, hstops⟩ := word_ends_of_standsAt hliteral
    have htext : text = outer ++ stretch ++ outer' := by
      rw [← textOf_placeholderSegments text, hliteral.textOf_eq, source]
    refine ⟨hkind, ?_, hdigits, fun {other} hother => ?_⟩
    · rw [htext, hbefore, hafter]
      exact hword.append_append hstarts hstops
    · have hlength := congrArg List.length hword.text_eq
      rcases hliteral.apart (standsIn_placeholderSegments.mpr hother) with ⟨heq, -⟩ | happart
      · exact absurd heq (by simp)
      · simp only [Span.start, Span.stop, Span.source, hkind, source, hbefore,
          List.length_append] at hlength happart ⊢
        omega
  · rintro ⟨hkind, hword, hdigits, hapart⟩
    obtain ⟨c, rest, hvalue⟩ := List.exists_cons_of_ne_nil hword.ne_nil
    have htext : textOf (placeholderSegments text) = span.before ++ c :: (rest ++ span.after) := by
      rw [textOf_placeholderSegments, hword.text_eq, hvalue]
      simp
    obtain ⟨outer, segment, outer', hstands, hle, hlt⟩ := exists_standsAt_of_textOf_eq htext
    cases segment with
    | slot kind value =>
      have hother := standsIn_placeholderSegments.mp
        (show Span.StandsIn ⟨kind, outer, value, outer'⟩ _ from hstands)
      have hpos : 0 < span.source.length := by
        simp [Span.source, hkind, source, hvalue]
      have happart : outer.length + (slot kind value).source.length ≤ span.before.length ∨
          span.before.length + span.source.length ≤ outer.length := hapart hother
      omega
    | literal stretch =>
      have htext : text = outer ++ stretch ++ outer' := by
        rw [← textOf_placeholderSegments text, hstands.textOf_eq, source]
      rw [htext] at hword
      obtain ⟨inner, inner', hbefore, hafter, hinner⟩ :=
        hword.exists_of_append_append (word_ends_of_standsAt hstands).2 hle hlt
      exact ⟨outer, stretch, outer', inner, inner', hstands,
        standsAt_numbers.mpr ⟨hkind, hinner, hdigits⟩, hbefore, hafter⟩

/-! ### The spans of a scan -/

/-- The spans of the slots, if `passed` comes before the segments. -/
def spansAfter (passed : List Char) : List Segment → List Span
  | [] => []
  | literal text :: rest => spansAfter (passed ++ text) rest
  | slot kind value :: rest =>
    ⟨kind, passed, value, textOf rest⟩ :: spansAfter (passed ++ source (slot kind value)) rest

theorem mem_spansAfter_iff {passed : List Char} {segments : List Segment} :
    span ∈ spansAfter passed segments ↔ ∃ more, span.before = passed ++ more ∧
      StandsAt segments more (slot span.kind span.value) span.after := by
  fun_induction spansAfter passed segments with
  | case1 passed => simp [not_standsAt_nil]
  | case2 passed text rest ih =>
    simp only [ih, standsAt_cons, reduceCtorEq, false_and, and_false, false_or, source]
    constructor
    · rintro ⟨more, hbefore, h⟩
      exact ⟨text ++ more, by simp [hbefore], more, rfl, h⟩
    · rintro ⟨_, hbefore, more, rfl, h⟩
      exact ⟨more, by simp [hbefore], h⟩
  | case3 passed kind value rest ih =>
    simp only [List.mem_cons, ih, standsAt_cons]
    constructor
    · rintro (rfl | ⟨more, hbefore, h⟩)
      · exact ⟨[], by simp, .inl ⟨rfl, rfl, rfl⟩⟩
      · exact ⟨(slot kind value).source ++ more, by simp [hbefore], .inr ⟨more, rfl, h⟩⟩
    · rintro ⟨_, hbefore, ⟨rfl, hslot, hafter⟩ | ⟨more, rfl, h⟩⟩
      · left
        obtain ⟨hkind, hvalue⟩ := slot.inj hslot
        cases span
        simp_all
      · exact .inr ⟨more, by simp [hbefore], h⟩

theorem mem_spansAfter_nil {segments : List Segment} :
    span ∈ spansAfter [] segments ↔ span.StandsIn segments := by
  rw [mem_spansAfter_iff]
  simp [Span.StandsIn]

theorem pairwise_spansAfter {passed : List Char} {segments : List Segment} (h : Settled segments) :
    (spansAfter passed segments).Pairwise fun s t => s.start < t.start := by
  fun_induction spansAfter passed segments with
  | case1 passed => exact .nil
  | case2 passed text rest ih => exact ih h.2.2
  | case3 passed kind value rest ih =>
    have hrest : Settled rest ∧ 0 < (source (slot kind value)).length := by
      match kind, h with
      | .quoted, h => exact ⟨h.2, by simp [source]⟩
      | .placeholder, h => exact ⟨h, by simp [source]⟩
      | .number, h => exact ⟨h.2.2.2, List.length_pos_of_ne_nil h.1⟩
    refine .cons (fun later hlater => ?_) (ih hrest.1)
    obtain ⟨more, hbefore, -⟩ := mem_spansAfter_iff.mp hlater
    simp only [Span.start, hbefore, List.length_append]
    omega

theorem map_parametersAfter_eq_spansAfter (seen : List Kind) (passed : List Char)
    (segments : List Segment) :
    (parametersAfter seen segments).map (fun p => (p.kind, p.value.toList)) =
      (spansAfter passed segments).map fun s => (s.kind, s.value) := by
  induction segments generalizing seen passed with
  | nil => rfl
  | cons segment segments ih =>
    cases segment with
    | literal text => exact ih seen _
    | slot kind value =>
      rw [parametersAfter, spansAfter, List.map_cons, List.map_cons, ih, String.toList_ofList]

/-- The parameters of a step text are those of the quoted spans, the placeholders and the numbers
that the text has, in the order in which these start. -/
theorem parameters_scan_eq_spans (text : List Char) :
    ∃ spans : List Span, spans.Pairwise (fun s t => s.start < t.start) ∧
      (∀ span, span ∈ spans ↔
        span.IsQuoted text ∨ span.IsPlaceholder text ∨ span.IsNumber text) ∧
      (parameters (scan text)).map (fun p => (p.kind, p.value.toList)) =
        spans.map fun s => (s.kind, s.value) := by
  refine ⟨spansAfter [] (scan text), pairwise_spansAfter (settled_scan text), fun span => ?_,
    map_parametersAfter_eq_spansAfter [] [] _⟩
  rw [mem_spansAfter_nil, standsIn_scan]

/-- A bracket is not closed in another stretch, and the last of three quotes hides no number. -/
example : (parameters (scan "<a \"1\" b> é2 3x \"4".toList)).map (fun p => (p.kind, p.value)) =
    [(.quoted, "1"), (.number, "2"), (.number, "4")] := by
  decide +kernel

end StepGlue.Segment
