import StepGlue.Proofs.Step.Place

/-!
# Words in a text

A word is a run of word characters that no further one touches. The pass for numbers cuts out the
words of digits (`standsAt_numbers`). A word of a piece of a text is a word of the whole text, and
the other way round, if no word goes on beyond the ends of the piece.
-/

namespace StepGlue.Segment

open Parameter

/-- No word comes from the end of a text. -/
def StartsWord (text : List Char) : Prop :=
  ∀ c ∈ text.getLast?, ¬isWordChar c

/-- A longest run of word characters, with the text before it and after it. -/
structure IsWord (text before word after : List Char) : Prop where
  text_eq : text = before ++ word ++ after
  ne_nil : word ≠ []
  isWordChar : ∀ c ∈ word, isWordChar c
  starts : StartsWord before
  stops : EndsWord after

variable {c : Char} {text rest before word after outer outer' : List Char}

theorem startsWord_nil : StartsWord [] := by
  simp [StartsWord]

theorem startsWord_concat : StartsWord (text ++ [c]) ↔ ¬Segment.isWordChar c := by
  simp [StartsWord]

theorem StartsWord.append (hleft : StartsWord outer) (hright : StartsWord text) :
    StartsWord (outer ++ text) := by
  rcases List.eq_nil_or_concat text with rfl | ⟨text, c, rfl⟩
  · simpa using hleft
  · rw [List.concat_eq_append, startsWord_concat] at hright
    rw [List.concat_eq_append, ← List.append_assoc, startsWord_concat]
    exact hright

theorem StartsWord.of_append (h : StartsWord (outer ++ text)) : StartsWord text := by
  intro c hc
  exact h c (by simp [Option.mem_def.mp hc])

theorem EndsWord.of_append (h : EndsWord (text ++ outer)) : EndsWord text := by
  intro c hc
  exact h c (by simp [Option.mem_def.mp hc])

theorem takeWhile_append_of_endsWord (hword : ∀ c ∈ word, Segment.isWordChar c)
    (hafter : EndsWord after) : (word ++ after).takeWhile Segment.isWordChar = word := by
  rw [List.takeWhile_append_of_pos hword]
  cases after with
  | nil => simp
  | cons c rest => simp [List.takeWhile_cons_of_neg (endsWord_cons.mp hafter)]

theorem IsWord.ne_nil_of_endsWord (h : IsWord text before word after) (hends : EndsWord text) :
    before ≠ [] := by
  rintro rfl
  obtain ⟨c, rest, rfl⟩ := List.exists_cons_of_ne_nil h.ne_nil
  rw [h.text_eq] at hends
  exact endsWord_cons.mp hends (h.isWordChar c List.mem_cons_self)

theorem isWord_cons_iff (hc : ¬Segment.isWordChar c) : IsWord (c :: rest) before word after ↔
    ∃ more, before = c :: more ∧ IsWord rest more word after := by
  constructor
  · intro h
    obtain ⟨d, more, rfl⟩ :=
      List.exists_cons_of_ne_nil (h.ne_nil_of_endsWord (endsWord_cons.mpr hc))
    obtain ⟨rfl, hrest⟩ := List.cons.inj h.text_eq
    have hstarts : StartsWord ([c] ++ more) := h.starts
    exact ⟨more, rfl, hrest, h.ne_nil, h.isWordChar, hstarts.of_append, h.stops⟩
  · rintro ⟨more, rfl, h⟩
    have hfirst : StartsWord ([] ++ [c]) := startsWord_concat.mpr hc
    exact ⟨by rw [h.text_eq]; rfl, h.ne_nil, h.isWordChar, hfirst.append h.starts, h.stops⟩

/-- The words of a text that starts with one are that one and the words behind it. -/
theorem isWord_append_iff {first : List Char} (hne : first ≠ [])
    (hfirst : ∀ c ∈ first, Segment.isWordChar c) (hrest : EndsWord rest) :
    IsWord (first ++ rest) before word after ↔
      (before = [] ∧ word = first ∧ after = rest) ∨
        ∃ more, before = first ++ more ∧ IsWord rest more word after := by
  constructor
  · intro h
    have htext := h.text_eq
    rw [List.append_assoc] at htext
    rcases List.append_eq_append_iff.mp htext with ⟨more, rfl, hmore⟩ | ⟨more, hmore, htail⟩
    · exact .inr ⟨more, rfl, by rw [hmore, List.append_assoc], h.ne_nil, h.isWordChar,
        h.starts.of_append, h.stops⟩
    · have hbefore : before = [] := by
        by_contra hbefore
        have hlast : before.getLast hbefore ∈ first := by simp [hmore]
        exact h.starts _ (List.getLast?_eq_some_getLast hbefore) (hfirst _ hlast)
      subst hbefore
      rw [List.nil_append] at hmore
      subst hmore
      have hwords : word = first := by
        rw [← takeWhile_append_of_endsWord h.isWordChar h.stops, htail,
          takeWhile_append_of_endsWord hfirst hrest]
      subst hwords
      exact .inl ⟨rfl, rfl, List.append_cancel_left htail⟩
  · rintro (⟨rfl, rfl, rfl⟩ | ⟨more, rfl, h⟩)
    · exact ⟨rfl, hne, hfirst, startsWord_nil, hrest⟩
    · have hmore := h.ne_nil_of_endsWord hrest
      have hstarts : StartsWord (first ++ more) := by
        obtain ⟨init, last, rfl⟩ := (List.eq_nil_or_concat more).resolve_left hmore
        have hlast := h.starts
        rw [List.concat_eq_append, startsWord_concat] at hlast
        rw [List.concat_eq_append, ← List.append_assoc, startsWord_concat]
        exact hlast
      exact ⟨by simp [h.text_eq], h.ne_nil, h.isWordChar, hstarts, h.stops⟩

/-- The slots of the pass for numbers are the words of digits. -/
theorem standsAt_numbers {kind : Kind} {value : List Char} :
    StandsAt (numbers text) before (slot kind value) after ↔
      kind = .number ∧ IsWord text before value after ∧ ∀ c ∈ value, c.isDigit := by
  have hfirst : ∀ {c rest}, isWordChar c →
      ∀ d ∈ c :: List.takeWhile isWordChar rest, isWordChar d := by
    intro c rest hc d hd
    rcases List.mem_cons.mp hd with rfl | hd
    · exact hc
    · exact List.mem_takeWhile_imp hd
  have hcons : ∀ c rest, c :: rest =
      (c :: List.takeWhile isWordChar rest) ++ List.dropWhile isWordChar rest := by
    intro c rest
    rw [List.cons_append, List.takeWhile_append_dropWhile]
  fun_induction numbers text generalizing before with
  | case1 =>
    refine iff_of_false not_standsAt_nil ?_
    rintro ⟨-, h, -⟩
    exact h.ne_nil_of_endsWord endsWord_nil
      (List.append_eq_nil_iff.mp (List.append_eq_nil_iff.mp h.text_eq.symm).1).1
  | case2 c rest hc word others hword =>
    rename_i ih
    rw [standsAt_cons, hcons c rest,
      isWord_append_iff (by simp) (hfirst hc) (endsWord_dropWhile rest)]
    constructor
    · rintro (⟨rfl, hslot, hafter⟩ | ⟨more, rfl, hmore⟩)
      · obtain ⟨rfl, rfl⟩ := slot.inj hslot
        exact ⟨rfl, .inl ⟨rfl, rfl, by rw [← hafter, textOf_numbers]⟩, List.all_eq_true.mp hword⟩
      · obtain ⟨rfl, hmore, hdigits⟩ := ih.mp hmore
        exact ⟨rfl, .inr ⟨more, rfl, hmore⟩, hdigits⟩
    · rintro ⟨rfl, ⟨rfl, rfl, rfl⟩ | ⟨more, rfl, hmore⟩, hdigits⟩
      · exact .inl ⟨rfl, rfl, textOf_numbers _⟩
      · exact .inr ⟨more, rfl, ih.mpr ⟨rfl, hmore, hdigits⟩⟩
  | case3 c rest hc word others hword =>
    rename_i ih
    rw [standsAt_consLiteral_slot, hcons c rest,
      isWord_append_iff (by simp) (hfirst hc) (endsWord_dropWhile rest)]
    constructor
    · rintro ⟨more, rfl, hmore⟩
      obtain ⟨rfl, hmore, hdigits⟩ := ih.mp hmore
      exact ⟨rfl, .inr ⟨more, rfl, hmore⟩, hdigits⟩
    · rintro ⟨rfl, ⟨-, rfl, -⟩ | ⟨more, rfl, hmore⟩, hdigits⟩
      · exact absurd (List.all_eq_true.mpr hdigits) hword
      · exact ⟨more, rfl, ih.mpr ⟨rfl, hmore, hdigits⟩⟩
  | case4 c rest hc =>
    rename_i ih
    rw [standsAt_consLiteral_slot, isWord_cons_iff hc]
    constructor
    · rintro ⟨more, rfl, hmore⟩
      obtain ⟨rfl, hmore, hdigits⟩ := ih.mp hmore
      exact ⟨rfl, ⟨more, rfl, hmore⟩, hdigits⟩
    · rintro ⟨rfl, ⟨more, rfl, hmore⟩, hdigits⟩
      exact ⟨more, rfl, ih.mpr ⟨rfl, hmore, hdigits⟩⟩

/-! ### Words of a piece -/

theorem IsWord.append_append (h : IsWord text before word after) (hstarts : StartsWord outer)
    (hstops : EndsWord outer') :
    IsWord (outer ++ text ++ outer') (outer ++ before) word (after ++ outer') where
  text_eq := by simp [h.text_eq]
  ne_nil := h.ne_nil
  isWordChar := h.isWordChar
  starts := hstarts.append h.starts
  stops := h.stops.append hstops

/-- A word that starts in a piece of a text ends in it, if no word goes on where the piece ends. -/
theorem IsWord.exists_of_append_append (h : IsWord (outer ++ text ++ outer') before word after)
    (hstops : EndsWord outer') (hle : outer.length ≤ before.length)
    (hlt : before.length < outer.length + text.length) :
    ∃ inner inner', before = outer ++ inner ∧ after = inner' ++ outer' ∧
      IsWord text inner word inner' := by
  have htext := h.text_eq
  have hbefore : before <+: outer ++ text ++ outer' := ⟨word ++ after, by simp [htext]⟩
  obtain ⟨inner, rfl⟩ : outer <+: before :=
    List.prefix_of_prefix_length_le ⟨text ++ outer', by simp⟩ hbefore hle
  have hinner : text ++ outer' = inner ++ word ++ after := by simpa using htext
  have hinside : outer' <:+ after := by
    rcases List.append_eq_append_iff.mp hinner with ⟨more, hmore, houter⟩ | ⟨more, -, rfl⟩
    · have hword : word <:+ inner ++ word := ⟨inner, rfl⟩
      have hsuffix : more <:+ word :=
        List.suffix_of_suffix_length_le ⟨text, hmore.symm⟩ hword (by
          have hlength := congrArg List.length hmore
          simp only [List.length_append] at hlength hlt
          omega)
      cases more with
      | nil => exact ⟨[], houter⟩
      | cons c more =>
        have hc : Segment.isWordChar c := h.isWordChar c (hsuffix.subset List.mem_cons_self)
        exact absurd hc (endsWord_cons.mp (houter ▸ hstops))
    · exact ⟨more, rfl⟩
  obtain ⟨inner', rfl⟩ := hinside
  rw [← List.append_assoc, List.append_left_inj] at hinner
  exact ⟨inner, inner', rfl, rfl, hinner, h.ne_nil, h.isWordChar, h.starts.of_append,
    h.stops.of_append⟩

end StepGlue.Segment
