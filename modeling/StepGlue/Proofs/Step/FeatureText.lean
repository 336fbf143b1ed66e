import StepGlue.Proofs.Step.Opening

/-!
# Texts that look like features

A text is taken for a feature if one of its lines starts with a feature word, where only a line feed
ends a line. Cutting a text into lines goes by carriage returns too, so a line may be seen there
that does not count here: one that comes after a lone carriage return (`StepLine.HidesFeature`).
-/

namespace StepGlue.StepLine

open Text

variable {s rest : List Char} {c : Char}

def StartsFeature (s : List Char) : Prop :=
  ∃ word ∈ featureWords, word.toList <+: s

instance (s : List Char) : Decidable (StartsFeature s) :=
  inferInstanceAs (Decidable (∃ word ∈ featureWords, word.toList <+: s))

theorem opensFeature_iff : opensFeature s ↔ StartsFeature (trimLeft s) := by
  rw [opensFeature, List.any_eq_true]
  refine exists_congr fun word => and_congr_right fun _ => ?_
  rw [Option.isSome_iff_exists]
  exact exists_congr fun rest => afterPrefix?_eq_some_iff.trans eq_comm

theorem not_isBlank_of_mem_featureWord {word : String} (hword : word ∈ featureWords)
    (hc : c ∈ word.toList) : ¬isBlank c := by
  have hall : (featureWords.all fun word => word.toList.all fun c => !isBlank c) = true := by decide
  simpa using List.all_eq_true.mp (List.all_eq_true.mp hall word hword) c hc

/-- No feature word goes on over a blank. -/
theorem startsFeature_append_cons (hc : isBlank c) :
    StartsFeature (s ++ c :: rest) ↔ StartsFeature s := by
  refine exists_congr fun word => and_congr_right fun hword => ⟨fun h => ?_, fun h => ?_⟩
  · have hs : s <+: s ++ c :: rest := List.prefix_append s _
    rcases List.prefix_or_prefix_of_prefix h hs with hword | ⟨more, hmore⟩
    · exact hword
    · cases more with
      | nil => exact List.append_nil s ▸ hmore ▸ List.prefix_rfl
      | cons d more =>
        rw [← hmore, List.prefix_append_right_inj, List.cons_prefix_cons] at h
        have hmem : c ∈ word.toList := by rw [← hmore, h.1]; simp
        exact absurd hc (not_isBlank_of_mem_featureWord hword hmem)
  · exact h.trans (List.prefix_append s _)

theorem startsFeature_append_of_blank {blanks : List Char} (h : blanks.all isBlank) :
    StartsFeature (s ++ blanks) ↔ StartsFeature s := by
  cases blanks with
  | nil => rw [List.append_nil]
  | cons c blanks =>
    rw [List.all_cons, Bool.and_eq_true] at h
    exact startsFeature_append_cons h.1

theorem not_startsFeature_nil : ¬StartsFeature [] := by
  decide

/-! ### Lines that end in line feeds -/

theorem opensFeature_iff_trim : opensFeature s ↔ StartsFeature (trim s) := by
  obtain ⟨before, after, hbefore, hafter, hs⟩ := exists_blanks_trim s
  have hleft : trimLeft (trim s) = trim s := trimLeft_eq_self fun _ => not_isBlank_of_mem_head?_trim
  by_cases htrim : trim s = []
  · have hall : trimLeft s = [] := List.dropWhile_eq_nil_iff.mpr
      (List.all_eq_true.mp (trim_eq_nil_iff.mp htrim))
    rw [opensFeature_iff, hall, htrim]
  · rw [opensFeature_iff]
    conv_lhs => rw [hs, List.append_assoc, trimLeft_append_of_blank hbefore,
      trimLeft_append (hleft.symm ▸ htrim), hleft]
    exact startsFeature_append_of_blank hafter

theorem opensFeature_cons_of_blank (hc : isBlank c) : opensFeature (c :: s) = opensFeature s := by
  rw [Bool.eq_iff_iff, opensFeature_iff, opensFeature_iff, trimLeft, List.dropWhile_cons_of_pos hc,
    ← trimLeft]

/-- The blanks at the start may go on over a line feed, but only if there is nothing else before
it. -/
theorem opensFeature_append_feed (s rest : List Char) : opensFeature (s ++ '\n' :: rest) ↔
    StartsFeature (trim s) ∨ s.all isBlank ∧ opensFeature rest := by
  by_cases hs : s.all isBlank
  · have hnil : ¬StartsFeature (trim s) := by
      rw [trim_eq_nil_iff.mpr hs]
      exact not_startsFeature_nil
    rw [opensFeature_iff, trimLeft_append_of_blank hs, ← opensFeature_iff,
      opensFeature_cons_of_blank (by decide)]
    simp [hnil, hs]
  · have hne : trimLeft s ≠ [] := fun hnil =>
      hs (List.all_eq_true.mpr (List.dropWhile_eq_nil_iff.mp hnil))
    rw [opensFeature_iff, trimLeft_append hne, startsFeature_append_cons (by decide),
      ← opensFeature_iff, opensFeature_iff_trim]
    simp [hs]

@[simp]
theorem afterLineFeeds_feed : afterLineFeeds ('\n' :: s) = s :: afterLineFeeds s := by
  rw [afterLineFeeds, if_pos rfl]

theorem afterLineFeeds_cons (h : c ≠ '\n') : afterLineFeeds (c :: s) = afterLineFeeds s := by
  rw [afterLineFeeds, if_neg h]

theorem afterLineFeeds_append (h : '\n' ∉ s) :
    afterLineFeeds (s ++ rest) = afterLineFeeds rest := by
  induction s with
  | nil => rfl
  | cons c s ih =>
    rw [List.mem_cons, not_or] at h
    rw [List.cons_append, afterLineFeeds_cons (Ne.symm h.1), ih h.2]

theorem isFeatureText_append_feed (h : '\n' ∉ s) : isFeatureText (s ++ '\n' :: rest) ↔
    StartsFeature (trim s) ∨ isFeatureText rest := by
  rw [isFeatureText, afterLineFeeds_append h, afterLineFeeds_feed, isFeatureText, List.any_cons,
    Bool.or_eq_true, opensFeature_append_feed, List.any_cons, Bool.or_eq_true]
  tauto

/-- A text is a feature exactly if one of the lines that its line feeds end starts with a feature
word, blanks aside. -/
theorem isFeatureText_iff :
    isFeatureText s ↔ ∃ line ∈ splitOn '\n' s, StartsFeature (trim line) := by
  have hlines : ∀ lines : List (List Char), lines ≠ [] → (∀ line ∈ lines, '\n' ∉ line) →
      (isFeatureText (['\n'].intercalate lines) ↔ ∃ line ∈ lines, StartsFeature (trim line)) := by
    intro lines hne hfeeds
    -- the last line has no break after it, so it is a case of its own
    induction lines with
    | nil => exact absurd rfl hne
    | cons line lines ih =>
      rw [List.forall_mem_cons] at hfeeds
      cases lines with
      | nil =>
        have hnone : afterLineFeeds line = [] := by
          rw [← List.append_nil line, afterLineFeeds_append hfeeds.1, afterLineFeeds]
        rw [List.intercalate_singleton, isFeatureText, hnone]
        simp [opensFeature_iff_trim]
      | cons next lines =>
        rw [List.intercalate_cons_cons, List.append_assoc, List.singleton_append,
          isFeatureText_append_feed hfeeds.1, ih (List.cons_ne_nil _ _) hfeeds.2]
        simp only [List.mem_cons, exists_eq_or_imp]
  have hjoined : ['\n'].intercalate (splitOn '\n' s) = s := by
    rw [splitOn_eq, List.intercalate_splitOn]
  conv_lhs => rw [← hjoined]
  exact hlines _ (splitOn_ne_nil '\n' s) fun _ => not_mem_of_mem_splitOn

/-! ### Lines after lone carriage returns -/

/-- A carriage return that no line feed follows stands in a text, and after it, blanks aside, a
feature word. -/
def HidesFeature (s : List Char) : Prop :=
  ∃ before rest, s = before ++ '\r' :: rest ∧ rest.head? ≠ some '\n' ∧
    StartsFeature (trimLeft rest)

theorem not_hidesFeature_nil : ¬HidesFeature [] := by
  rintro ⟨before, rest, h, -⟩
  simp at h

theorem hidesFeature_cons : HidesFeature (c :: s) ↔
    (c = '\r' ∧ s.head? ≠ some '\n' ∧ opensFeature s) ∨ HidesFeature s := by
  rw [opensFeature_iff]
  constructor
  · rintro ⟨before, rest, h, hlone, hstarts⟩
    cases before with
    | nil =>
      obtain ⟨rfl, rfl⟩ := List.cons.inj h
      exact .inl ⟨rfl, hlone, hstarts⟩
    | cons d before =>
      obtain ⟨rfl, rfl⟩ := List.cons.inj h
      exact .inr ⟨before, rest, rfl, hlone, hstarts⟩
  · rintro (⟨rfl, hlone, hstarts⟩ | ⟨before, rest, rfl, hlone, hstarts⟩)
    · exact ⟨[], s, rfl, hlone, hstarts⟩
    · exact ⟨c :: before, rest, rfl, hlone, hstarts⟩

instance decidableHidesFeature : (s : List Char) → Decidable (HidesFeature s)
  | [] => .isFalse not_hidesFeature_nil
  | _ :: s =>
    have := decidableHidesFeature s
    decidable_of_iff _ hidesFeature_cons.symm

theorem opensFeature_unifyBreaks (s : List Char) :
    opensFeature (unifyBreaks s) = opensFeature s := by
  rw [Bool.eq_iff_iff, opensFeature_iff, opensFeature_iff, trimLeft_unifyBreaks]
  refine exists_congr fun word => and_congr_right fun hword => ?_
  exact isPrefix_unifyBreaks_iff
    (fun hfeed => not_isBlank_of_mem_featureWord hword hfeed (by decide))
    (fun hreturn => not_isBlank_of_mem_featureWord hword hreturn (by decide))

/-- With one kind of break, lines after lone carriage returns are lines like all others. -/
theorem any_afterLineFeeds_unifyBreaks (s : List Char) :
    (afterLineFeeds (unifyBreaks s)).any opensFeature ↔
      (afterLineFeeds s).any opensFeature ∨ HidesFeature s := by
  fun_induction unifyBreaks s with
  | case1 => simp [not_hidesFeature_nil]
  | case2 rest ih =>
    rw [afterLineFeeds_feed, afterLineFeeds_cons (by decide), afterLineFeeds_feed, List.any_cons,
      List.any_cons, Bool.or_eq_true, Bool.or_eq_true, ih, opensFeature_unifyBreaks,
      hidesFeature_cons, hidesFeature_cons]
    simp [or_assoc]
  | case3 d rest hbreak ih =>
    have hlone : d = '\r' → rest.head? ≠ some '\n' := by
      rintro rfl hfeed
      obtain ⟨more, rfl⟩ := List.head?_eq_some_iff.mp hfeed
      exact hbreak more rfl rfl
    rw [hidesFeature_cons]
    by_cases hreturn : d = '\r'
    · rw [if_pos hreturn, afterLineFeeds_feed, List.any_cons, Bool.or_eq_true, ih,
        opensFeature_unifyBreaks, afterLineFeeds_cons (hreturn ▸ by decide)]
      simp [hreturn, hlone hreturn, or_left_comm]
    · rw [if_neg hreturn]
      by_cases hfeed : d = '\n'
      · rw [hfeed, afterLineFeeds_feed, afterLineFeeds_feed, List.any_cons, List.any_cons,
          Bool.or_eq_true, Bool.or_eq_true, ih, opensFeature_unifyBreaks]
        simp [or_assoc]
      · rw [afterLineFeeds_cons hfeed, afterLineFeeds_cons hfeed, ih]
        simp [hreturn]

/-- Some line of a text starts with a feature word exactly if the text is taken for a feature or
hides such a line behind a carriage return. -/
theorem exists_startsFeature_iff (text : String) :
    (∃ line ∈ splitLines text, StartsFeature line.toList) ↔
      looksLikeFeature none text ∨ HidesFeature text.toList := by
  have hlines : (∃ line ∈ splitLines text, StartsFeature line.toList) ↔
      isFeatureText (unifyBreaks text.toList) := by
    rw [isFeatureText_iff, splitLines]
    simp only [List.mem_map, exists_exists_and_eq_and, String.toList_ofList]
  rw [hlines, looksLikeFeature, Option.any_none, Bool.false_or, isFeatureText, isFeatureText,
    List.any_cons, List.any_cons, Bool.or_eq_true, Bool.or_eq_true, any_afterLineFeeds_unifyBreaks,
    opensFeature_unifyBreaks, or_assoc]

theorem startsFeature_of_opens {keyword : Keyword} {gap rest line : List Char}
    (h : keyword.Opens gap rest line) (hbut : keyword ≠ .but) : StartsFeature line := by
  refine ⟨keyword.word, ?_, ?_⟩
  · cases keyword with
    | but => exact absurd rfl hbut
    | given | when | then_ | and => decide
  · rw [h.eq_append]
    exact List.prefix_append _ _

/-- A text that is taken for a feature has a line that starts with a feature word. The converse
holds exactly if the text hides no such line behind a carriage return or is taken for a feature by
another one. A text that hides none is taken for a feature as soon as a step can be seen in it. -/
theorem looksLikeFeature_agrees_iff (text : String) :
    (looksLikeFeature none text → ∃ line ∈ splitLines text, StartsFeature line.toList) ∧
      ((looksLikeFeature none text ↔ ∃ line ∈ splitLines text, StartsFeature line.toList) ↔
        looksLikeFeature none text ∨ ¬HidesFeature text.toList) ∧
      (¬HidesFeature text.toList → ∀ line ∈ splitLines text, ∀ keyword gap body,
        Keyword.Opens keyword gap body line.toList → keyword ≠ .but →
          ∀ fileName, looksLikeFeature fileName text) := by
  have hexists := exists_startsFeature_iff text
  refine ⟨fun h => hexists.mpr (.inl h), ?_, ?_⟩
  · rw [hexists]
    tauto
  · intro hhidden line hline keyword gap body hopens hbut fileName
    have hstarts := startsFeature_of_opens hopens hbut
    have hlooks := (hexists.mp ⟨line, hline, hstarts⟩).resolve_right hhidden
    rw [looksLikeFeature, Option.any_none, Bool.false_or] at hlooks
    rw [looksLikeFeature, hlooks, Bool.or_true]

/-- Line feeds, some with carriage returns before them, a blank line and an indented step. -/
theorem looksLikeFeature_of_indented_step :
    let text := "Login page\r\n \r\n\tAnd I log in\n"
    ¬HidesFeature text.toList ∧ "And I log in" ∈ splitLines text ∧
      looksLikeFeature (some "login.txt") text := by
  intro text
  have hhidden : ¬HidesFeature text.toList := by decide +kernel
  have hline : "And I log in" ∈ splitLines text := by decide +kernel
  have hopens : Keyword.and.Opens [' '] "I log in".toList "And I log in".toList :=
    ⟨by decide, by decide, by decide⟩
  obtain ⟨-, -, hseen⟩ := looksLikeFeature_agrees_iff text
  exact ⟨hhidden, hline, hseen hhidden _ hline _ _ _ hopens (by decide) _⟩

/-- A step after a lone carriage return is seen, and the text is not taken for a feature. -/
theorem not_looksLikeFeature_of_lone_return :
    let text := "Login page\rGiven I log in"
    classify (splitLines text) = ["Given I log in"] ∧
      ¬(looksLikeFeature none text ↔ ∃ line ∈ splitLines text, StartsFeature line.toList) := by
  decide +kernel

end StepGlue.StepLine
