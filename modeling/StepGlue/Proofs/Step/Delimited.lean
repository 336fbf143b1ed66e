import Mathlib.Algebra.Group.Nat.Even
import Mathlib.Data.List.Chain
import StepGlue.Proofs.Step.Place

/-!
# The search for delimited stretches

What the search cuts out of a text is told without the search: `Reaches` goes through the text from
the front, and what it finds where it stands is a slot (`standsAt_delimited`). Where both delimiters
are quotes, the search stands in front of a quote after every even number of them.
-/

namespace StepGlue.Segment

open Parameter

/-- A search that starts at the front of a text comes past `passed` and stands before the rest. It
goes on by one character, or behind a stretch that it found. -/
inductive Reaches (opening closing : Char) : List Char → List Char → List Char → Prop
  | start {text} : Reaches opening closing text [] text
  | literal {c rest passed left} (hc : c ≠ opening)
      (hrest : Reaches opening closing rest passed left) :
      Reaches opening closing (c :: rest) (c :: passed) left
  | stretch {value after passed left} (hvalue : closing ∉ value)
      (hafter : Reaches opening closing after passed left) :
      Reaches opening closing (opening :: (value ++ closing :: after))
        (opening :: (value ++ closing :: passed)) left

variable {opening closing : Char} {text passed left before after : List Char}

theorem Reaches.text_eq (h : Reaches opening closing text passed left) : text = passed ++ left := by
  induction h with
  | start => rfl
  | literal _ _ ih => rw [ih, List.cons_append]
  | stretch _ _ ih => simp [ih]

theorem reaches_cons_iff {c : Char} {rest : List Char} :
    Reaches opening closing (c :: rest) passed left ↔
      (passed = [] ∧ left = c :: rest) ∨
        (c ≠ opening ∧ ∃ more, passed = c :: more ∧ Reaches opening closing rest more left) ∨
          (c = opening ∧ ∃ value after more, cut? closing rest = some (value, after) ∧
            passed = opening :: (value ++ closing :: more) ∧
            Reaches opening closing after more left) := by
  constructor
  · intro h
    generalize htext : c :: rest = text at h
    cases h with
    | start => exact .inl ⟨rfl, rfl⟩
    | literal hc hrest =>
      obtain ⟨rfl, rfl⟩ := List.cons.inj htext
      exact .inr (.inl ⟨hc, _, rfl, hrest⟩)
    | stretch hvalue hafter =>
      obtain ⟨rfl, rfl⟩ := List.cons.inj htext
      exact .inr (.inr ⟨rfl, _, _, _, cut?_eq_some_iff.mpr ⟨rfl, hvalue⟩, rfl, hafter⟩)
  · rintro (⟨rfl, rfl⟩ | ⟨hc, more, rfl, hrest⟩ | ⟨rfl, value, after, more, hcut, rfl, hafter⟩)
    · exact .start
    · exact .literal hc hrest
    · obtain ⟨rfl, hvalue⟩ := cut?_eq_some_iff.mp hcut
      exact .stretch hvalue hafter

/-- The slots of a search stand where the search comes to a stretch. -/
theorem standsAt_delimited {kind kind' : Kind} {value : List Char}
    (hsource : ∀ value, source (slot kind value) = opening :: value ++ [closing]) :
    StandsAt (delimited kind opening closing text) before (slot kind' value) after ↔
      kind' = kind ∧ closing ∉ value ∧
        Reaches opening closing text before (opening :: (value ++ closing :: after)) := by
  fun_induction delimited kind opening closing text generalizing before with
  | case1 =>
    refine iff_of_false not_standsAt_nil ?_
    rintro ⟨-, -, h⟩
    simpa using h.text_eq
  | case2 rest value' after' hcut ih =>
    rw [standsAt_cons, reaches_cons_iff, hsource, textOf_delimited hsource]
    constructor
    · rintro (⟨rfl, hslot, rfl⟩ | ⟨more, rfl, hmore⟩)
      · obtain ⟨rfl, rfl⟩ := slot.inj hslot
        obtain ⟨rfl, hvalue⟩ := cut?_eq_some_iff.mp hcut
        exact ⟨rfl, hvalue, .inl ⟨rfl, rfl⟩⟩
      · obtain ⟨rfl, hvalue, h⟩ := ih.mp hmore
        exact ⟨rfl, hvalue, .inr (.inr ⟨rfl, _, _, more, hcut, by simp, h⟩)⟩
    · rintro ⟨rfl, hvalue, ⟨rfl, hleft⟩ | ⟨hne, -⟩ | ⟨-, _, _, more, hcut', rfl, h⟩⟩
      · obtain ⟨-, hrest⟩ := List.cons.inj hleft
        have hfound := cut?_eq_some_iff.mpr ⟨hrest.symm, hvalue⟩
        obtain ⟨rfl, rfl⟩ := Prod.mk.inj (Option.some.inj (hfound.symm.trans hcut))
        exact .inl ⟨rfl, rfl, rfl⟩
      · exact absurd rfl hne
      · obtain ⟨rfl, rfl⟩ := Prod.mk.inj (Option.some.inj (hcut'.symm.trans hcut))
        exact .inr ⟨more, by simp, ih.mpr ⟨rfl, hvalue, h⟩⟩
  | case3 rest hcut =>
    refine iff_of_false ?_ ?_
    · simp [standsAt_cons, not_standsAt_nil]
    · rw [reaches_cons_iff]
      rintro ⟨-, hvalue, ⟨-, hleft⟩ | ⟨hne, -⟩ | ⟨-, _, _, _, hcut', -⟩⟩
      · obtain ⟨-, hrest⟩ := List.cons.inj hleft
        have hfound := cut?_eq_some_iff.mpr ⟨hrest.symm, hvalue⟩
        exact absurd (hfound.symm.trans hcut) (by simp)
      · exact hne rfl
      · exact absurd (hcut'.symm.trans hcut) (by simp)
  | case4 c rest hc ih =>
    rw [standsAt_consLiteral_slot, reaches_cons_iff]
    simp only [ih]
    constructor
    · rintro ⟨more, rfl, rfl, hvalue, h⟩
      exact ⟨rfl, hvalue, .inr (.inl ⟨hc, more, rfl, h⟩)⟩
    · rintro ⟨rfl, hvalue, ⟨-, hleft⟩ | ⟨-, more, rfl, h⟩ | ⟨heq, -⟩⟩
      · exact absurd (List.cons.inj hleft).1.symm hc
      · exact ⟨more, rfl, rfl, hvalue, h⟩
      · exact absurd heq hc

/-! ### Literals between the slots -/

theorem isChain_consLiteral {segments : List Segment}
    (h : segments.IsChain fun s t => s.kind?.isSome ∨ t.kind?.isSome) :
    (consLiteral text segments).IsChain fun s t => s.kind?.isSome ∨ t.kind?.isSome := by
  unfold consLiteral
  split
  · rename_i more rest
    cases rest with
    | nil => exact .singleton _
    | cons next rest =>
      rw [List.isChain_cons_cons] at h ⊢
      exact h
  · rename_i hfirst
    match segments with
    | [] => exact .singleton _
    | slot kind value :: rest => exact .cons_cons (.inr rfl) h
    | literal more :: rest => exact absurd rfl (hfirst more rest)

/-- No two literals are neighbours. -/
theorem isChain_delimited (kind : Kind) (opening closing : Char) (text : List Char) :
    (delimited kind opening closing text).IsChain
      fun s t => s.kind?.isSome ∨ t.kind?.isSome := by
  fun_induction delimited kind opening closing text with
  | case1 => exact .nil
  | case2 rest value after hcut ih =>
    cases h : delimited kind opening closing after with
    | nil => exact .singleton _
    | cons next later => exact .cons_cons (.inl rfl) (h ▸ ih)
  | case3 rest hcut => exact .singleton _
  | case4 c rest hc ih => exact isChain_consLiteral ih

/-- A literal reaches from the end of a slot, or of the text, to the next one. -/
theorem StandsAt.literal_delimited {kind : Kind} {value : List Char}
    (h : StandsAt (delimited kind opening closing text) before (literal value) after) :
    (before = [] ∨ ∃ earlier kind' value',
        StandsAt (delimited kind opening closing text) earlier (slot kind' value')
          (value ++ after) ∧ before = earlier ++ source (slot kind' value')) ∧
      (after = [] ∨ ∃ kind' value' later,
        StandsAt (delimited kind opening closing text) (before ++ value) (slot kind' value') later ∧
          after = source (slot kind' value') ++ later) := by
  obtain ⟨left, right, hsegments, rfl, rfl⟩ := h
  have hchain := isChain_delimited kind opening closing text
  rw [hsegments] at hchain ⊢
  constructor
  · rcases List.eq_nil_or_concat left with rfl | ⟨first, last, rfl⟩
    · exact .inl rfl
    · rw [List.concat_eq_append, List.append_assoc, List.singleton_append] at hchain ⊢
      have hlast := (List.isChain_append_cons_cons.mp hchain).2.1
      match last, hlast with
      | slot kind' value', _ =>
        exact .inr ⟨textOf first, kind', value', ⟨first, _, rfl, rfl, rfl⟩, by simp⟩
  · match right with
    | [] => exact .inl rfl
    | next :: later =>
      have hnext := (List.isChain_append_cons_cons.mp hchain).2.1
      match next, hnext with
      | slot kind' value', _ =>
        exact .inr ⟨kind', value', textOf later,
          ⟨left ++ [literal value], later, by simp, by simp [source], rfl⟩, rfl⟩

/-! ### Quotes -/

theorem cut?_eq_none_iff : cut? closing text = none ↔ closing ∉ text := by
  induction text with
  | nil => simp [cut?]
  | cons c rest ih =>
    by_cases hc : c = closing
    · simp [cut?, hc]
    · simp [cut?, hc, ih, Ne.symm hc]

theorem Reaches.even_count (h : Reaches '"' '"' text passed left) : Even (passed.count '"') := by
  induction h with
  | start => simp
  | literal hc _ ih => rwa [List.count_cons_of_ne hc]
  | @stretch value _ passed _ hvalue _ ih =>
    have hcount : ('"' :: (value ++ '"' :: passed)).count '"' = passed.count '"' + 2 := by
      simp [List.count_eq_zero_of_not_mem hvalue]
    rw [hcount]
    exact ih.add ⟨1, rfl⟩

/-- By recursion over what is passed: after a quote with an even number of quotes behind it comes
another one, and a search is past both at once. -/
theorem reaches_of_even_count {before : List Char} (h : Even (before.count '"'))
    (after : List Char) : Reaches '"' '"' (before ++ after) before after := by
  match before with
  | [] => exact .start
  | c :: rest =>
    by_cases hc : c = '"'
    · subst hc
      rw [List.count_cons_self, Nat.even_add_one] at h
      cases hcut : cut? '"' rest with
      | none =>
        rw [List.count_eq_zero_of_not_mem (cut?_eq_none_iff.mp hcut)] at h
        exact absurd Even.zero h
      | some found =>
        obtain ⟨value, later⟩ := found
        obtain ⟨rfl, hvalue⟩ := cut?_eq_some_iff.mp hcut
        rw [List.count_append, List.count_cons_self, List.count_eq_zero_of_not_mem hvalue,
          Nat.zero_add, Nat.even_add_one, not_not] at h
        have hlater := reaches_of_even_count h after
        rw [List.cons_append, List.append_assoc]
        exact .stretch hvalue hlater
    · rw [List.count_cons_of_ne hc] at h
      exact .literal hc (reaches_of_even_count h after)
termination_by before.length

/-- The search for quoted values comes to a place if the number of quotes before it is even. -/
theorem reaches_quote_iff : Reaches '"' '"' text passed left ↔
    text = passed ++ left ∧ Even (passed.count '"') := by
  constructor
  · exact fun h => ⟨h.text_eq, h.even_count⟩
  · rintro ⟨rfl, heven⟩
    exact reaches_of_even_count heven left

end StepGlue.Segment
