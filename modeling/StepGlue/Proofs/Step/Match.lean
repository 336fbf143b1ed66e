import StepGlue.Proofs.Step.Pattern

/-!
# Matching the pattern of some segments

`Fits` is the matching relation brought down to segments: it needs no anchors, no text before and
no rest. Every match of an anchored pattern on a text without line feeds is a fit, and the text
that the segments were cut from fits them with what the slots hold.
-/

namespace StepGlue.Segment

open Regex Parameter

/-- Whether a text is a match of the pattern of some segments, and what the groups capture. -/
inductive Fits (digits : Digits) : List Segment → (text : List Char) →
    (captures : List (List Char)) → Prop
  | nil : Fits digits [] [] []
  | literal {text segments rest captures} (hrest : Fits digits segments rest captures) :
      Fits digits (literal text :: segments) (text ++ rest) captures
  | quoted {value segments inner rest captures} (hinner : '\n' ∉ inner)
      (hrest : Fits digits segments rest captures) :
      Fits digits (slot .quoted value :: segments) ('"' :: inner ++ '"' :: rest)
        (inner :: captures)
  | placeholder {value segments inner rest captures} (hinner : '\n' ∉ inner)
      (hrest : Fits digits segments rest captures) :
      Fits digits (slot .placeholder value :: segments) (inner ++ rest) (inner :: captures)
  | number {value segments inner rest captures} (hne : inner ≠ [])
      (hinner : ∀ c ∈ inner, digits.admits c) (hrest : Fits digits segments rest captures) :
      Fits digits (slot .number value :: segments) (inner ++ rest) (inner :: captures)

/-- The text that settled segments were cut from fits them, with the values that they hold. -/
theorem Settled.fits (digits : Digits) {segments : List Segment} (h : Settled segments)
    (hline : '\n' ∉ textOf segments) :
    Fits digits segments (textOf segments) (occurrences segments) := by
  induction segments with
  | nil => exact .nil
  | cons segment segments ih =>
    rw [textOf_cons, List.mem_append, not_or] at hline
    obtain ⟨hsource, hrest⟩ := hline
    match segment with
    | literal text => exact .literal (ih h.2.2 hrest)
    | slot .quoted value =>
      have hvalue : '\n' ∉ value := fun hmem => hsource (by simp [source, hmem])
      have htext : source (slot .quoted value) ++ textOf segments =
          '"' :: value ++ '"' :: textOf segments := by simp [source]
      rw [textOf_cons, htext]
      exact .quoted hvalue (ih h.2 hrest)
    | slot .placeholder value => exact .placeholder hsource (ih h hrest)
    | slot .number value =>
      exact .number h.1 (fun c hc => digits.admits_of_isDigit (h.2.1 c hc)) (ih h.2.2.2 hrest)

variable {digits : Digits}

/-! ### From the expression to the segments -/

section Regex

variable {before text rest : List Char} {others : List Item} {captures : List (List Char)}

theorem matches_one_iff {c : Char} :
    Matches digits before (.piece (.one (.only c)) :: others) text captures rest ↔
      ∃ tail, text = c :: tail ∧ Matches digits (before ++ [c]) others tail captures rest := by
  rw [matches_piece_iff]
  constructor
  · rintro ⟨_, tail, rfl, ⟨d, rfl, hd⟩, h⟩
    obtain rfl : d = c := by simpa [CharClass.admits] using hd
    exact ⟨tail, rfl, h⟩
  · rintro ⟨tail, rfl, h⟩
    exact ⟨[c], tail, rfl, ⟨c, rfl, by simp [CharClass.admits]⟩, h⟩

theorem matches_literally_iff {literal : List Char} :
    Matches digits before (literally literal ++ others) text captures rest ↔
      ∃ tail, text = literal ++ tail ∧
        Matches digits (before ++ literal) others tail captures rest := by
  induction literal generalizing before text with
  | nil => simp
  | cons c literal ih =>
    have hbefore : before ++ c :: literal = before ++ [c] ++ literal := by simp
    rw [literally_cons, List.cons_append, matches_one_iff, hbefore]
    constructor
    · rintro ⟨_, rfl, h⟩
      obtain ⟨tail, rfl, htail⟩ := ih.mp h
      exact ⟨tail, rfl, htail⟩
    · rintro ⟨tail, rfl, h⟩
      exact ⟨literal ++ tail, rfl, ih.mpr ⟨tail, rfl, h⟩⟩

theorem matches_many_iff {cls : CharClass} {least : Nat} {preference : Preference} :
    Matches digits before (.group [.many cls least preference] :: others) text captures rest ↔
      ∃ inner tail captures', text = inner ++ tail ∧ captures = inner :: captures' ∧
        (least ≤ inner.length ∧ ∀ c ∈ inner, cls.admits digits c) ∧
        Matches digits (before ++ inner) others tail captures' rest := by
  simp only [matches_group_iff, piecesMatch_singleton, Piece.Matches]

theorem forall_admits_any_iff {inner : List Char} :
    (∀ c ∈ inner, CharClass.any.admits digits c) ↔ '\n' ∉ inner := by
  simp only [CharClass.admits, bne_iff_ne, ne_eq]
  exact ⟨fun h hmem => h _ hmem rfl, fun h c hc heq => h (heq ▸ hc)⟩

theorem Fits.matches {segments : List Segment} (h : Fits digits segments text captures)
    {tail : List Char} {captures' : List (List Char)}
    (hothers : Matches digits (before ++ text) others tail captures' rest) :
    Matches digits before (regex segments ++ others) (text ++ tail) (captures ++ captures')
      rest := by
  induction h generalizing before with
  | nil => simpa using hothers
  | @literal part segments inner captures hrest ih =>
    rw [regex_cons, List.append_assoc, List.append_assoc]
    refine matches_literally_iff.mpr ⟨_, rfl, ih ?_⟩
    rwa [List.append_assoc]
  | @quoted value segments inner inner' captures hinner hrest ih =>
    have hbefore : before ++ ('"' :: inner ++ '"' :: inner') =
        before ++ ['"'] ++ inner ++ ['"'] ++ inner' := by simp
    rw [hbefore] at hothers
    have hend := matches_one_iff.mpr ⟨_, rfl, ih hothers⟩
    have hgroup : Matches digits (before ++ ['"'])
        (.group [.many .any 0 .shortestFirst] :: .piece (.one (.only '"')) ::
          (regex segments ++ others))
        (inner ++ '"' :: (inner' ++ tail)) (inner :: (captures ++ captures')) rest :=
      matches_many_iff.mpr
        ⟨inner, _, _, rfl, rfl, ⟨Nat.zero_le _, forall_admits_any_iff.mpr hinner⟩, hend⟩
    have hstart := matches_one_iff.mpr ⟨_, rfl, hgroup⟩
    simpa [items, Kind.items] using hstart
  | @placeholder value segments inner inner' captures hinner hrest ih =>
    rw [List.append_assoc, List.cons_append]
    refine matches_many_iff.mpr
      ⟨inner, _, _, rfl, rfl, ⟨Nat.zero_le _, forall_admits_any_iff.mpr hinner⟩, ih ?_⟩
    rwa [List.append_assoc]
  | @number value segments inner inner' captures hne hinner hrest ih =>
    rw [List.append_assoc, List.cons_append]
    refine matches_many_iff.mpr
      ⟨inner, _, _, rfl, rfl, ⟨List.length_pos_of_ne_nil hne, hinner⟩, ih ?_⟩
    rwa [List.append_assoc]

/-- A match of the expression of some segments, and of what follows it, splits in two. -/
theorem exists_fits_of_matches {segments : List Segment}
    (h : Matches digits before (regex segments ++ others) text captures rest) :
    ∃ first tail captures₁ captures₂, text = first ++ tail ∧ captures = captures₁ ++ captures₂ ∧
      Fits digits segments first captures₁ ∧
      Matches digits (before ++ first) others tail captures₂ rest := by
  induction segments generalizing before text captures with
  | nil => exact ⟨[], text, [], captures, rfl, rfl, .nil, by simpa using h⟩
  | cons segment segments ih =>
    rw [regex_cons, List.append_assoc] at h
    match segment with
    | literal part =>
      obtain ⟨_, rfl, hmatches⟩ := matches_literally_iff.mp h
      obtain ⟨first, tail, captures₁, captures₂, rfl, rfl, hfits, hothers⟩ := ih hmatches
      exact ⟨part ++ first, tail, captures₁, captures₂, by simp, rfl, .literal hfits,
        by simpa using hothers⟩
    | slot .quoted value =>
      obtain ⟨_, rfl, hstart⟩ := matches_one_iff.mp h
      obtain ⟨inner, _, _, rfl, rfl, ⟨-, hinner⟩, hgroup⟩ := matches_many_iff.mp hstart
      obtain ⟨_, rfl, hend⟩ := matches_one_iff.mp hgroup
      obtain ⟨first, tail, captures₁, captures₂, rfl, rfl, hfits, hothers⟩ := ih hend
      exact ⟨'"' :: inner ++ '"' :: first, tail, inner :: captures₁, captures₂, by simp, rfl,
        .quoted (forall_admits_any_iff.mp hinner) hfits, by simpa using hothers⟩
    | slot .placeholder value =>
      obtain ⟨inner, _, _, rfl, rfl, ⟨-, hinner⟩, hgroup⟩ := matches_many_iff.mp h
      obtain ⟨first, tail, captures₁, captures₂, rfl, rfl, hfits, hothers⟩ := ih hgroup
      exact ⟨inner ++ first, tail, inner :: captures₁, captures₂, by simp, rfl,
        .placeholder (forall_admits_any_iff.mp hinner) hfits, by simpa using hothers⟩
    | slot .number value =>
      obtain ⟨inner, _, _, rfl, rfl, ⟨hleast, hinner⟩, hgroup⟩ := matches_many_iff.mp h
      obtain ⟨first, tail, captures₁, captures₂, rfl, rfl, hfits, hothers⟩ := ih hgroup
      exact ⟨inner ++ first, tail, inner :: captures₁, captures₂, by simp, rfl,
        .number (List.ne_nil_of_length_pos hleast) hinner hfits, by simpa using hothers⟩

/-- On a text without line feeds, the expression and an end anchor match all of it or nothing. -/
theorem matches_regex_finish_iff {segments : List Segment} (hline : '\n' ∉ text) :
    Matches digits before (regex segments ++ [.finish]) text captures rest ↔
      rest = [] ∧ Fits digits segments text captures := by
  constructor
  · intro h
    obtain ⟨first, tail, captures₁, captures₂, rfl, rfl, hfits, hfinish⟩ :=
      exists_fits_of_matches h
    rw [matches_finish_iff, matches_nil_iff] at hfinish
    obtain ⟨hend, rfl, rfl⟩ := hfinish
    rcases hend with rfl | rfl
    · exact ⟨rfl, by simpa using hfits⟩
    · simp at hline
  · rintro ⟨rfl, hfits⟩
    have hfinish : Matches digits (before ++ text) [.finish] [] [] [] :=
      matches_finish_iff.mpr ⟨.inl rfl, .nil⟩
    have hmatches := hfits.matches hfinish
    simpa using hmatches

theorem matches_anchored_iff {segments : List Segment} (hline : '\n' ∉ text) :
    Matches digits [] (anchoredRegex segments) text captures rest ↔
      rest = [] ∧ Fits digits segments text captures := by
  rw [anchoredRegex, List.cons_append, matches_start_iff, matches_regex_finish_iff hline]
  exact and_iff_right rfl

end Regex

end StepGlue.Segment
