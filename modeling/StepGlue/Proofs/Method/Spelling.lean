import Mathlib
import StepGlue.Proofs.Method.Identifier
import StepGlue.Proofs.Text.Words

/-!
# What a method name keeps of a text

A name is spelled by the letters and digits of the text in order. A letter is a capital if it is the
first letter or digit of its word and an earlier word has one too; digits at the front are dropped
after that, so they count as well. Main statement: `ofText_spells`.
-/

namespace StepGlue.MethodName

open Text

variable {c d : Char} {before s : List Char} {text other : String}

/-! ### Letters and digits -/

theorem not_isBlank_of_isAlphanum : c.isAlphanum → ¬isBlank c :=
  forall_isAlphanum (P := fun c => ¬isBlank c) (by decide +kernel)

theorem isDigit_toLower (c : Char) : c.toLower.isDigit = c.isDigit := by
  by_cases h : c.isUpper
  · have hkept : c.isAlphanum := by simp [Char.isAlphanum, Char.isAlpha, h]
    exact forall_isAlphanum (P := fun c => c.toLower.isDigit = c.isDigit) (by decide +kernel) hkept
  · rw [Char.toLower_eq_of_not_isUpper h]

theorem not_isDigit_of_isAlpha (h : c.isAlpha) : ¬c.isDigit :=
  forall_isAlphanum (P := fun c => c.isAlpha → ¬c.isDigit) (by decide +kernel)
    (by simp [Char.isAlphanum, h]) h

/-! ### Capitals by their places -/

/-- A letter or digit after `before` is the first one of its word, but not the first of all. -/
def OpensLaterWord (before : List Char) : Prop :=
  (∃ c ∈ before, c.isAlphanum) ∧ ∀ c ∈ before.rtakeWhile (!isBlank ·), ¬c.isAlphanum

instance : DecidablePred OpensLaterWord :=
  fun before => decidable_of_iff (before.any Char.isAlphanum ∧
      (before.rtakeWhile (!isBlank ·)).all (!Char.isAlphanum ·))
    (by simp [OpensLaterWord])

/-- A letter or digit in the case that its place calls for. -/
def spelledChar (before : List Char) (c : Char) : Char :=
  if OpensLaterWord before then c.toUpper else c.toLower

/-- The letters and digits of a text that stands behind `before`, each in its case. -/
def spelledAfter (before : List Char) : List Char → List Char
  | [] => []
  | c :: rest =>
    if c.isAlphanum then spelledChar before c :: spelledAfter (before ++ [c]) rest
    else spelledAfter (before ++ [c]) rest

theorem not_opensLaterWord_concat (h : c.isAlphanum) : ¬OpensLaterWord (before ++ [c]) := by
  rintro ⟨-, hlead⟩
  have hblank := not_isBlank_of_isAlphanum h
  rw [List.rtakeWhile_concat_pos _ _ _ (by simpa using hblank)] at hlead
  exact hlead c (by simp) h

theorem opensLaterWord_concat_of_blank (h : isBlank c) :
    OpensLaterWord (before ++ [c]) ↔ ∃ d ∈ before, d.isAlphanum := by
  have hkept : ¬c.isAlphanum := fun hc => not_isBlank_of_isAlphanum hc h
  rw [OpensLaterWord, List.rtakeWhile_concat_neg _ _ _ (by simpa using h)]
  simp [or_and_right, exists_or, hkept]

theorem opensLaterWord_concat_of_other (hkept : ¬c.isAlphanum) (hblank : ¬isBlank c) :
    OpensLaterWord (before ++ [c]) ↔ OpensLaterWord before := by
  rw [OpensLaterWord, OpensLaterWord, List.rtakeWhile_concat_pos _ _ _ (by simpa using hblank)]
  simp [or_and_right, exists_or, or_imp, forall_and, hkept]

/-- Behind a letter or digit, the words that begin are capitalized and the one that goes on is
not. -/
theorem spelledAfter_of_started (h : ∃ c ∈ before, c.isAlphanum) : spelledAfter before s =
    if OpensLaterWord before then (words (s.filter isKept)).flatMap capitalized
    else lowerWord ((s.filter isKept).takeWhile (!isBlank ·)) ++
      (words ((s.filter isKept).dropWhile (!isBlank ·))).flatMap capitalized := by
  -- A letter or digit takes the opening of its word, a blank opens the next one, a mark neither.
  induction s generalizing before with
  | nil => simp [spelledAfter, words, lowerWord]
  | cons c rest ih =>
    have hstarted : ∃ d ∈ before ++ [c], d.isAlphanum := by
      obtain ⟨d, hd, hdKept⟩ := h
      exact ⟨d, List.mem_append_left _ hd, hdKept⟩
    by_cases hc : c.isAlphanum
    · have hblank := not_isBlank_of_isAlphanum hc
      have hkept : isKept c := by simp [isKept, hc]
      rw [spelledAfter, if_pos hc, ih hstarted, if_neg (not_opensLaterWord_concat hc),
        List.filter_cons_of_pos hkept, spelledChar]
      split
      · rw [words_cons_of_not_blank hblank, List.flatMap_cons, capitalized, List.cons_append]
      · simp [hblank, lowerWord]
    · rw [spelledAfter, if_neg hc, ih hstarted]
      by_cases hblank : isBlank c
      · have hkept : isKept c := by simp [isKept, hblank]
        rw [if_pos ((opensLaterWord_concat_of_blank hblank).mpr h), List.filter_cons_of_pos hkept,
          words_cons_of_blank hblank]
        simp [hblank, words_cons_of_blank hblank, lowerWord]
      · have hkept : ¬isKept c := by simp [isKept, hc, hblank]
        rw [List.filter_cons_of_neg hkept]
        simp only [opensLaterWord_concat_of_other hc hblank]

theorem spelledAfter_of_not_started (h : ∀ c ∈ before, ¬c.isAlphanum) :
    spelledAfter before s = camelCase (words (s.filter isKept)) := by
  induction s generalizing before with
  | nil => rfl
  | cons c rest ih =>
    by_cases hc : c.isAlphanum
    · have hblank := not_isBlank_of_isAlphanum hc
      have hkept : isKept c := by simp [isKept, hc]
      have hopens : ¬OpensLaterWord before := by
        rintro ⟨⟨d, hd, hdKept⟩, -⟩
        exact h d hd hdKept
      rw [spelledAfter, if_pos hc, spelledAfter_of_started ⟨c, by simp, hc⟩,
        if_neg (not_opensLaterWord_concat hc), List.filter_cons_of_pos hkept,
        words_cons_of_not_blank hblank, spelledChar, if_neg hopens]
      rfl
    · have hnone : ∀ d ∈ before ++ [c], ¬d.isAlphanum := by
        rw [List.forall_mem_append, List.forall_mem_singleton]
        exact ⟨h, hc⟩
      rw [spelledAfter, if_neg hc, ih hnone]
      by_cases hblank : isBlank c
      · have hkept : isKept c := by simp [isKept, hblank]
        rw [List.filter_cons_of_pos hkept, words_cons_of_blank hblank]
      · have hkept : ¬isKept c := by simp [isKept, hc, hblank]
        rw [List.filter_cons_of_neg hkept]

/-- The name that a text spells; empty if the text has no letter. -/
def spelling (s : List Char) : List Char :=
  (spelledAfter [] s).dropWhile Char.isDigit

theorem ofText_eq (text : String) : ofText text =
    if spelling text.toList = [] then fallback else String.ofList (spelling text.toList) := by
  rw [ofText, spelling, spelledAfter_of_not_started (List.forall_mem_nil _)]
  split
  · rename_i hnil
    rw [if_pos hnil]
  · rename_i hne
    rw [if_neg hne]

/-! ### What is spelled -/

theorem toLower_spelledChar (before : List Char) (c : Char) :
    (spelledChar before c).toLower = c.toLower := by
  rw [spelledChar]
  split
  · exact Char.toLower_toUpper_eq_toLower c
  · exact Char.toLower_toLower_eq_toLower c

theorem isUpper_spelledChar_iff : (spelledChar before c).isUpper ↔
    (spelledChar before c).isAlpha ∧ OpensLaterWord before := by
  rw [spelledChar]
  split
  · rename_i hopens
    rw [Char.isUpper_toUpper_eq_isAlpha, Char.isAlpha_toUpper_eq_isAlpha, and_iff_left hopens]
  · rename_i hopens
    rw [Char.isUpper_toLower_eq_false]
    exact iff_of_false Bool.false_ne_true fun hand => hopens hand.2

theorem map_toLower_spelledAfter (before s : List Char) :
    (spelledAfter before s).map Char.toLower = (s.filter Char.isAlphanum).map Char.toLower := by
  induction s generalizing before with
  | nil => rfl
  | cons c rest ih =>
    by_cases hc : c.isAlphanum
    · rw [spelledAfter, if_pos hc, List.filter_cons_of_pos hc, List.map_cons, List.map_cons, ih,
        toLower_spelledChar]
    · rw [spelledAfter, if_neg hc, List.filter_cons_of_neg hc, ih]

theorem map_toLower_dropWhile (s : List Char) :
    (s.dropWhile Char.isDigit).map Char.toLower = (s.map Char.toLower).dropWhile Char.isDigit := by
  have hdigit : Char.isDigit ∘ Char.toLower = Char.isDigit := funext isDigit_toLower
  rw [List.dropWhile_map, hdigit]

/-- Up to case, a name is the letters and digits of its text, without the digits at the front. -/
theorem map_toLower_spelling (s : List Char) : (spelling s).map Char.toLower =
    ((s.filter Char.isAlphanum).dropWhile Char.isDigit).map Char.toLower := by
  rw [spelling, map_toLower_dropWhile, map_toLower_spelledAfter, map_toLower_dropWhile]

theorem spelling_eq_nil_iff : spelling s = [] ↔ ∀ c ∈ s, ¬c.isAlpha := by
  rw [← List.map_eq_nil_iff (f := Char.toLower), map_toLower_spelling, List.map_eq_nil_iff,
    List.dropWhile_eq_nil_iff]
  constructor
  · intro hdigits c hc halpha
    have hkept : c ∈ s.filter Char.isAlphanum :=
      List.mem_filter.mpr ⟨hc, by simp [Char.isAlphanum, halpha]⟩
    exact not_isDigit_of_isAlpha halpha (hdigits c hkept)
  · intro hnone c hc
    obtain ⟨hmem, hkept⟩ := List.mem_filter.mp hc
    simpa [Char.isAlphanum, hnone c hmem] using hkept

/-- Each character that is spelled comes from a place in the text. -/
theorem exists_place_of_spelledAfter {front back : List Char}
    (h : spelledAfter before s = front ++ d :: back) :
    ∃ passed c after, s = passed ++ c :: after ∧ c.isAlphanum ∧
      front = spelledAfter before passed ∧ d = spelledChar (before ++ passed) c := by
  induction s generalizing before front with
  | nil => simp [spelledAfter] at h
  | cons c rest ih =>
    by_cases hc : c.isAlphanum
    · rw [spelledAfter, if_pos hc] at h
      cases front with
      | nil =>
        obtain ⟨rfl, -⟩ := List.cons.inj h
        exact ⟨[], c, rest, rfl, hc, rfl, by rw [List.append_nil]⟩
      | cons first front =>
        obtain ⟨rfl, htail⟩ := List.cons.inj h
        obtain ⟨passed, e, after, rfl, he, rfl, rfl⟩ := ih htail
        exact ⟨c :: passed, e, after, rfl, he, by rw [spelledAfter, if_pos hc], by simp⟩
    · rw [spelledAfter, if_neg hc] at h
      obtain ⟨passed, e, after, rfl, he, rfl, rfl⟩ := ih h
      exact ⟨c :: passed, e, after, rfl, he, by rw [spelledAfter, if_neg hc], by simp⟩

theorem not_isDigit_of_spelling_eq_cons {rest : List Char} (h : spelling s = c :: rest) :
    ¬c.isDigit := by
  have hhead := List.head?_dropWhile_not Char.isDigit (spelledAfter [] s)
  rw [show (spelledAfter [] s).dropWhile Char.isDigit = c :: rest from h] at hhead
  simpa using hhead

/-- What stands before a place spells what stands before its character in the name. -/
theorem exists_place_of_spelling {front back : List Char} (h : spelling s = front ++ d :: back) :
    ∃ before c after, s = before ++ c :: after ∧ c.isAlphanum ∧ front = spelling before ∧
      d = spelledChar before c := by
  have hdigits : ∀ c ∈ (spelledAfter [] s).takeWhile Char.isDigit, c.isDigit :=
    fun c hc => List.mem_takeWhile_imp hc
  have hspelled : spelledAfter [] s =
      ((spelledAfter [] s).takeWhile Char.isDigit ++ front) ++ d :: back := by
    rw [List.append_assoc, ← h, spelling, List.takeWhile_append_dropWhile]
  obtain ⟨before, c, after, hs, hc, hbefore, hd⟩ := exists_place_of_spelledAfter hspelled
  refine ⟨before, c, after, hs, hc, ?_, hd⟩
  -- The digits that the name drops all stand before the place, so they drop out there as well.
  rw [spelling, ← hbefore, List.dropWhile_append_of_pos hdigits]
  cases front with
  | nil => rfl
  | cons first front => rw [List.dropWhile_cons_of_neg (not_isDigit_of_spelling_eq_cons h)]

/-! ### Names -/

/-- How a name spells a text that has a letter. -/
structure Spells (text name : List Char) : Prop where
  startsWithLetter : ∃ c rest, name = c :: rest ∧ c.isAlpha
  /-- Up to case, the name is the letters and digits of the text without the digits at the front. -/
  map_toLower_eq : name.map Char.toLower =
    ((text.filter Char.isAlphanum).dropWhile Char.isDigit).map Char.toLower
  /-- Each character of the name comes from the place in the text that has the same letters and
  digits before it, and the place decides whether a letter is a capital. -/
  exists_place : ∀ {front d back}, name = front ++ d :: back →
    ∃ before c after, text = before ++ c :: after ∧ c.isAlphanum ∧ c.toLower = d.toLower ∧
      front.map Char.toLower =
        ((before.filter Char.isAlphanum).dropWhile Char.isDigit).map Char.toLower ∧
      (d.isUpper ↔ d.isAlpha ∧ OpensLaterWord before)

theorem toList_ofText (h : ∃ c ∈ text.toList, c.isAlpha) :
    (ofText text).toList = spelling text.toList := by
  obtain ⟨c, hc, halpha⟩ := h
  have hne : spelling text.toList ≠ [] := fun hnil => spelling_eq_nil_iff.mp hnil c hc halpha
  rw [ofText_eq, if_neg hne, String.toList_ofList]

theorem spells_ofText (h : ∃ c ∈ text.toList, c.isAlpha) :
    Spells text.toList (ofText text).toList where
  startsWithLetter := by
    obtain ⟨c, rest, hname, hc, -⟩ := isCamelWord_ofText text
    exact ⟨c, rest, hname, hc⟩
  map_toLower_eq := by rw [toList_ofText h, map_toLower_spelling]
  exists_place := by
    intro front d back hsplit
    rw [toList_ofText h] at hsplit
    obtain ⟨before, c, after, hs, hc, rfl, rfl⟩ := exists_place_of_spelling hsplit
    exact ⟨before, c, after, hs, hc, (toLower_spelledChar before c).symm,
      map_toLower_spelling before, isUpper_spelledChar_iff⟩

theorem ofText_of_no_letter (h : ∀ c ∈ text.toList, ¬c.isAlpha) : ofText text = fallback := by
  rw [ofText_eq, if_pos (spelling_eq_nil_iff.mpr h)]

/-! ### Texts with the same name -/

/-- Two texts of which one has a mark more, or other blanks in some place. Between two texts there
are some blanks on either side or none. -/
inductive Restyles : List Char → List Char → Prop
  | mark {before after : List Char} {c : Char} (hkept : ¬c.isAlphanum) (hblank : ¬isBlank c) :
    Restyles (before ++ c :: after) (before ++ after)
  | blanks {before run run' after : List Char} (hrun : run.all isBlank) (hrun' : run'.all isBlank)
    (hcut : before ≠ [] → after ≠ [] → run ≠ [] ∧ run' ≠ []) :
    Restyles (before ++ run ++ after) (before ++ run' ++ after)

theorem filter_isKept_of_blanks {run : List Char} (h : run.all isBlank) :
    run.filter isKept = run := by
  rw [List.filter_eq_self]
  intro c hc
  simp [isKept, List.all_eq_true.mp h c hc]

theorem Restyles.words_eq {s t : List Char} (h : Restyles s t) :
    words (s.filter isKept) = words (t.filter isKept) := by
  cases h with
  | mark hkept hblank => simp [isKept, hkept, hblank]
  | @blanks before run run' after hrun hrun' hcut =>
    rw [List.filter_append, List.filter_append, List.filter_append, List.filter_append,
      filter_isKept_of_blanks hrun, filter_isKept_of_blanks hrun']
    by_cases hbefore : before = []
    · rw [hbefore, List.filter_nil, List.nil_append, List.nil_append, words_blanks_append hrun,
        words_blanks_append hrun']
    · by_cases hafter : after = []
      · rw [hafter, List.filter_nil, List.append_nil, List.append_nil, words_append_blanks hrun,
          words_append_blanks hrun']
      · obtain ⟨hne, hne'⟩ := hcut hbefore hafter
        rw [words_append_blanks_append hrun hne, words_append_blanks_append hrun' hne']

theorem words_eq_of_eqvGen {s t : List Char} (h : Relation.EqvGen Restyles s t) :
    words (s.filter isKept) = words (t.filter isKept) := by
  induction h with
  | rel s t h => exact h.words_eq
  | refl s => rfl
  | symm s t _ ih => exact ih.symm
  | trans s t u _ _ ih ih' => exact ih.trans ih'

theorem ofText_congr (h : Relation.EqvGen Restyles text.toList other.toList) :
    ofText text = ofText other := by
  rw [ofText, ofText, words_eq_of_eqvGen h]

/-- **What a method name keeps.** A text without a letter gets the name for all such texts. Any
other name is spelled by the letters and digits of its text, with capitals where later words begin.
So marks and the number of blanks play no part. -/
theorem ofText_spells :
    (∀ text : String, (∀ c ∈ text.toList, ¬c.isAlpha) → ofText text = "generatedStep") ∧
    (∀ text : String, (∃ c ∈ text.toList, c.isAlpha) → Spells text.toList (ofText text).toList) ∧
    ∀ text other : String, Relation.EqvGen Restyles text.toList other.toList →
      ofText text = ofText other :=
  ⟨fun _ => ofText_of_no_letter, fun _ => spells_ofText, fun _ _ => ofText_congr⟩

/-- A text of digits, one whose first words are digits and a mark, and one with a mark in place of a
second space. -/
theorem ofText_spells_of_digits_and_marks :
    ofText "42 !" = "generatedStep" ∧
    Spells "3 - 4th e-mails".toList "thEmails".toList ∧
    ofText "log - in" = ofText "log  in" := by
  obtain ⟨hdefault, hspells, hcongr⟩ := ofText_spells
  refine ⟨hdefault "42 !" ?_, ?_, hcongr _ _ ?_⟩
  · have hnone : "42 !".toList.all (!Char.isAlpha ·) := by decide +kernel
    simpa only [List.all_eq_true, Bool.not_eq_true', ← Bool.not_eq_true] using hnone
  · have hname : ofText "3 - 4th e-mails" = "thEmails" := by decide +kernel
    exact hname ▸ hspells "3 - 4th e-mails" ⟨'t', by decide +kernel, by decide⟩
  · exact .rel _ _ (@Restyles.mark "log ".toList " in".toList '-' (by decide) (by decide))

end StepGlue.MethodName
