import StepGlue.Proofs.Step.Segment

/-!
# Where the segments of a text stand

A segment stands between the text before it and the text after it. A further pass over the literals
leaves every slot where it stands, and puts the slots it finds in place of the literal they were
found in (`standsAt_flatMap_refine`). Two segments of one list stand apart from each other, and
every character belongs to one of them.
-/

namespace StepGlue.Segment

open Parameter

/-- The segment is one of the list, with so much text before it and so much after it. -/
def StandsAt (segments : List Segment) (before : List Char) (segment : Segment)
    (after : List Char) : Prop :=
  ∃ left right, segments = left ++ segment :: right ∧ textOf left = before ∧
    textOf right = after

variable {segments left right : List Segment} {segment other : Segment}
  {before after before' after' : List Char}

theorem StandsAt.textOf_eq (h : StandsAt segments before segment after) :
    textOf segments = before ++ segment.source ++ after := by
  obtain ⟨left, right, rfl, rfl, rfl⟩ := h
  simp

theorem not_standsAt_nil : ¬StandsAt [] before segment after := by
  rintro ⟨left, right, h, -, -⟩
  simp at h

theorem standsAt_cons : StandsAt (other :: segments) before segment after ↔
    (before = [] ∧ segment = other ∧ textOf segments = after) ∨
      ∃ more, before = other.source ++ more ∧ StandsAt segments more segment after := by
  constructor
  · rintro ⟨left, right, h, rfl, rfl⟩
    cases left with
    | nil =>
      obtain ⟨rfl, rfl⟩ := List.cons.inj h
      exact .inl ⟨rfl, rfl, rfl⟩
    | cons first left =>
      obtain ⟨rfl, rfl⟩ := List.cons.inj h
      exact .inr ⟨textOf left, textOf_cons _ _, left, right, rfl, rfl, rfl⟩
  · rintro (⟨rfl, rfl, rfl⟩ | ⟨more, rfl, left, right, rfl, rfl, rfl⟩)
    · exact ⟨[], segments, rfl, rfl, rfl⟩
    · exact ⟨other :: left, right, rfl, textOf_cons _ _, rfl⟩

theorem standsAt_append : StandsAt (left ++ right) before segment after ↔
    (∃ more, StandsAt left before segment more ∧ after = more ++ textOf right) ∨
      ∃ more, before = textOf left ++ more ∧ StandsAt right more segment after := by
  induction left generalizing before with
  | nil => simp [not_standsAt_nil]
  | cons first left ih =>
    rw [List.cons_append, standsAt_cons]
    constructor
    · rintro (⟨rfl, rfl, rfl⟩ | ⟨more, rfl, h⟩)
      · exact .inl ⟨textOf left, standsAt_cons.mpr (.inl ⟨rfl, rfl, rfl⟩), textOf_append _ _⟩
      · rcases ih.mp h with ⟨rest, hleft, rfl⟩ | ⟨rest, rfl, hright⟩
        · exact .inl ⟨rest, standsAt_cons.mpr (.inr ⟨more, rfl, hleft⟩), rfl⟩
        · exact .inr ⟨rest, by simp, hright⟩
    · rintro (⟨more, h, rfl⟩ | ⟨more, rfl, h⟩)
      · rcases standsAt_cons.mp h with ⟨rfl, rfl, rfl⟩ | ⟨rest, rfl, hleft⟩
        · exact .inl ⟨rfl, rfl, textOf_append _ _⟩
        · exact .inr ⟨rest, rfl, ih.mpr (.inl ⟨more, hleft, rfl⟩)⟩
      · exact .inr ⟨textOf left ++ more, by simp, ih.mpr (.inr ⟨more, rfl, h⟩)⟩

/-- A literal that is put in front, or made longer, moves the slots behind it. -/
theorem standsAt_consLiteral_slot {text : List Char} {kind : Kind} {value : List Char} :
    StandsAt (consLiteral text segments) before (slot kind value) after ↔
      ∃ more, before = text ++ more ∧ StandsAt segments more (slot kind value) after := by
  unfold consLiteral
  split
  · rename_i more rest
    simp only [standsAt_cons, source, reduceCtorEq, false_and, and_false, false_or]
    constructor
    · rintro ⟨shorter, rfl, h⟩
      exact ⟨more ++ shorter, by simp, shorter, rfl, h⟩
    · rintro ⟨_, rfl, shorter, rfl, h⟩
      exact ⟨shorter, by simp, h⟩
  · simp [standsAt_cons, source]

/-- After a further pass a slot stands where it stood before, and every other segment where the pass
made it from a literal. -/
theorem standsAt_flatMap_refine {search : List Char → List Segment}
    (hsearch : ∀ text, textOf (search text) = text) :
    StandsAt (segments.flatMap (refine search)) before segment after ↔
      segment.kind?.isSome ∧ StandsAt segments before segment after ∨
        ∃ outer text outer' inner inner', StandsAt segments outer (literal text) outer' ∧
          StandsAt (search text) inner segment inner' ∧
          before = outer ++ inner ∧ after = inner' ++ outer' := by
  induction segments generalizing before with
  | nil => simp [not_standsAt_nil]
  | cons first segments ih =>
    have hrest : textOf (segments.flatMap (refine search)) = textOf segments :=
      textOf_flatMap_refine hsearch segments
    have hfirst : textOf (refine search first) = first.source := by
      cases first <;> simp [refine, hsearch, source]
    rw [List.flatMap_cons, standsAt_append, hrest, hfirst]
    constructor
    · rintro (⟨more, h, rfl⟩ | ⟨more, rfl, h⟩)
      · cases first with
        | literal text =>
          exact .inr ⟨[], text, textOf segments, before, more,
            standsAt_cons.mpr (.inl ⟨rfl, rfl, rfl⟩), h, rfl, rfl⟩
        | slot kind value =>
          rcases standsAt_cons.mp h with ⟨rfl, rfl, rfl⟩ | ⟨_, _, h⟩
          · exact .inl ⟨rfl, standsAt_cons.mpr (.inl ⟨rfl, rfl, rfl⟩)⟩
          · exact absurd h not_standsAt_nil
      · rcases ih.mp h with
          ⟨hslot, h⟩ | ⟨outer, text, outer', inner, inner', hliteral, hfound, rfl, rfl⟩
        · exact .inl ⟨hslot, standsAt_cons.mpr (.inr ⟨more, rfl, h⟩)⟩
        · exact .inr ⟨first.source ++ outer, text, outer', inner, inner',
            standsAt_cons.mpr (.inr ⟨outer, rfl, hliteral⟩), hfound, by simp, rfl⟩
    · rintro (⟨hslot, h⟩ | ⟨outer, text, outer', inner, inner', h, hfound, rfl, rfl⟩)
      · rcases standsAt_cons.mp h with ⟨rfl, rfl, rfl⟩ | ⟨more, rfl, hrest⟩
        · cases segment with
          | literal text => exact absurd hslot (by simp [kind?])
          | slot kind value => exact .inl ⟨[], standsAt_cons.mpr (.inl ⟨rfl, rfl, rfl⟩), rfl⟩
        · exact .inr ⟨more, rfl, ih.mpr (.inl ⟨hslot, hrest⟩)⟩
      · rcases standsAt_cons.mp h with ⟨rfl, rfl, rfl⟩ | ⟨more, rfl, hrest⟩
        · exact .inl ⟨inner', hfound, rfl⟩
        · exact .inr ⟨more ++ inner, by simp,
            ih.mpr (.inr ⟨more, text, outer', inner, inner', hrest, hfound, rfl, rfl⟩)⟩

/-! ### Segments side by side -/

theorem StandsAt.apart (h : StandsAt segments before segment after)
    (h' : StandsAt segments before' other after') :
    segment = other ∧ before = before' ∨
      before.length + segment.source.length ≤ before'.length ∨
      before'.length + other.source.length ≤ before.length := by
  obtain ⟨left, right, rfl, rfl, rfl⟩ := h
  obtain ⟨left', right', h', rfl, rfl⟩ := h'
  rcases List.append_eq_append_iff.mp h' with ⟨between, rfl, h⟩ | ⟨between, rfl, h⟩
  · cases between with
    | nil => exact .inl ⟨(List.cons.inj h).1, by simp⟩
    | cons first between =>
      obtain ⟨rfl, -⟩ := List.cons.inj h
      refine .inr (.inl ?_)
      simp only [textOf_append, textOf_cons, List.length_append]
      omega
  · cases between with
    | nil => exact .inl ⟨(List.cons.inj h).1.symm, by simp⟩
    | cons first between =>
      obtain ⟨rfl, -⟩ := List.cons.inj h
      refine .inr (.inr ?_)
      simp only [textOf_append, textOf_cons, List.length_append]
      omega

/-- Every character of a text belongs to a segment. -/
theorem exists_standsAt_of_textOf_eq {c : Char} (h : textOf segments = before ++ c :: after) :
    ∃ outer segment outer', StandsAt segments outer segment outer' ∧
      outer.length ≤ before.length ∧ before.length < outer.length + segment.source.length := by
  induction segments generalizing before with
  | nil => simp at h
  | cons first segments ih =>
    rw [textOf_cons] at h
    by_cases hlength : before.length < first.source.length
    · exact ⟨[], first, textOf segments, standsAt_cons.mpr (.inl ⟨rfl, rfl, rfl⟩), by simp,
        by simpa using hlength⟩
    · obtain ⟨more, rfl⟩ : first.source <+: before :=
        List.prefix_of_prefix_length_le (h ▸ List.prefix_append _ _) (List.prefix_append _ _)
          (by omega)
      rw [List.append_assoc, List.append_right_inj] at h
      obtain ⟨outer, segment, outer', hstands, hle, hlt⟩ := ih h
      refine ⟨first.source ++ outer, segment, outer',
        standsAt_cons.mpr (.inr ⟨outer, rfl, hstands⟩), ?_, ?_⟩
      · simp only [List.length_append]
        omega
      · simp only [List.length_append]
        omega

end StepGlue.Segment
