import StepGlue.Proofs.Text.Blank

/-!
# The words of a text

A word goes on as long as no blank comes, so words are cut at every blank, and blanks at the ends of
a text or in greater number between words make no difference.
-/

namespace StepGlue.Text

variable {s t blanks : List Char} {c : Char}

theorem trimLeft_cons_of_blank (h : isBlank c) : trimLeft (c :: s) = trimLeft s :=
  List.dropWhile_cons_of_pos h

theorem trimLeft_cons_of_not_blank (h : ¬isBlank c) : trimLeft (c :: s) = c :: s :=
  List.dropWhile_cons_of_neg h

theorem words_cons_of_blank (h : isBlank c) : words (c :: s) = words s := by
  cases s <;> simp [words, h]

/-- The first word ends before the first blank. -/
theorem words_cons_of_not_blank (h : ¬isBlank c) :
    words (c :: s) = (c :: s.takeWhile (!isBlank ·)) :: words (s.dropWhile (!isBlank ·)) := by
  induction s generalizing c with
  | nil => simp [words, h]
  | cons d rest ih =>
    by_cases hd : isBlank d
    · simp [words, h, hd]
    · rw [words, if_neg h, if_neg hd, ih hd]
      simp [hd]

theorem words_of_no_blank (h : ∀ c ∈ s, ¬isBlank c) (hne : s ≠ []) : words s = [s] := by
  obtain ⟨c, rest, rfl⟩ := List.exists_cons_of_ne_nil hne
  rw [List.forall_mem_cons] at h
  have hrest : ∀ d ∈ rest, !isBlank d := fun d hd => by simpa using h.2 d hd
  rw [words_cons_of_not_blank h.1, List.takeWhile_eq_self_iff.mpr hrest,
    List.dropWhile_eq_nil_iff.mpr hrest, words]

theorem words_append_cons_of_blank (h : isBlank c) (s t : List Char) :
    words (s ++ c :: t) = words s ++ words t := by
  fun_induction words s with
  | case1 => exact words_cons_of_blank h
  | case2 d hd =>
    rw [List.singleton_append, words_cons_of_blank hd, words_cons_of_blank h, List.nil_append]
  | case3 d hd =>
    rw [List.singleton_append, words_cons_of_not_blank hd]
    simp [h, words_cons_of_blank h]
  | case4 d e rest hd ih => rw [List.cons_append, words_cons_of_blank hd, ih]
  | case5 d e rest hd he ih =>
    rw [List.cons_append, List.cons_append, words, if_neg hd, if_pos he, ← List.cons_append, ih]
    rfl
  | case6 d e rest hd he hrest ih =>
    rw [words_cons_of_not_blank he] at hrest
    exact absurd hrest (List.cons_ne_nil _ _)
  | case7 d e rest hd he word others hrest ih =>
    rw [List.cons_append, List.cons_append, words, if_neg hd, if_neg he, ← List.cons_append, ih,
      hrest]
    rfl

theorem words_blanks_append (h : blanks.all isBlank) : words (blanks ++ s) = words s := by
  induction blanks with
  | nil => rfl
  | cons c blanks ih =>
    rw [List.all_cons, Bool.and_eq_true] at h
    rw [List.cons_append, words_cons_of_blank h.1, ih h.2]

/-- However many blanks stand between two texts, words are cut there. -/
theorem words_append_blanks_append (h : blanks.all isBlank) (hne : blanks ≠ []) :
    words (s ++ blanks ++ t) = words s ++ words t := by
  obtain ⟨c, more, rfl⟩ := List.exists_cons_of_ne_nil hne
  rw [List.all_cons, Bool.and_eq_true] at h
  rw [List.append_assoc, List.cons_append, words_append_cons_of_blank h.1, words_blanks_append h.2]

theorem words_append_blanks (h : blanks.all isBlank) : words (s ++ blanks) = words s := by
  by_cases hne : blanks = []
  · rw [hne, List.append_nil]
  · have hcut := words_append_blanks_append (s := s) (t := []) h hne
    rwa [List.append_nil, words, List.append_nil] at hcut

theorem words_trim (s : List Char) : words (trim s) = words s := by
  obtain ⟨before, after, hbefore, hafter, hs⟩ := exists_blanks_trim s
  conv_rhs => rw [hs, words_append_blanks hafter, words_blanks_append hbefore]

theorem isBlank_of_words_eq_nil (h : words s = []) (hc : c ∈ s) : isBlank c := by
  have hflatten := flatten_words s
  rw [h, List.flatten_nil, eq_comm, List.filter_eq_nil_iff] at hflatten
  simpa using hflatten c hc

end StepGlue.Text
