import StepGlue.Proofs.Text.Blank
import StepGlue.Text.Lines

/-!
# The lines of a text

Cutting at a character is that of the list library, whose laws apply. What is cut from lines that
end in line feeds is the lines again, if none of them has a line feed of its own.
-/

namespace StepGlue.Text

theorem splitOn_eq (sep : Char) (s : List Char) : splitOn sep s = s.splitOn sep := by
  induction s with
  | nil => rfl
  | cons c rest ih =>
    rw [splitOn, List.splitOn_cons_eq_if_modifyHead, ih]
    by_cases hc : c = sep
    · simp [hc]
    · obtain ⟨piece, others, hrest⟩ := List.exists_cons_of_ne_nil (List.splitOn_ne_nil sep rest)
      simp [hc, hrest]

theorem not_mem_of_mem_splitOn {sep : Char} {s piece : List Char} (h : piece ∈ splitOn sep s) :
    sep ∉ piece := by
  induction s generalizing piece with
  | nil => simp_all [splitOn]
  | cons c rest ih =>
    rw [splitOn] at h
    by_cases hc : c = sep
    · rw [if_pos hc, List.mem_cons] at h
      rcases h with rfl | h
      · simp
      · exact ih h
    · obtain ⟨first, others, hrest⟩ := List.exists_cons_of_ne_nil (splitOn_ne_nil sep rest)
      rw [if_neg hc, hrest, List.mem_cons] at h
      rcases h with rfl | h
      · have hfirst : sep ∉ first := ih (by simp [hrest])
        simp [hfirst, Ne.symm hc]
      · exact ih (by simp [hrest, h])

theorem exists_mem_splitOn_iff {sep c : Char} {s : List Char} (hc : c ≠ sep) :
    (∃ piece ∈ splitOn sep s, c ∈ piece) ↔ c ∈ s := by
  induction s with
  | nil => simp [splitOn]
  | cons d rest ih =>
    rw [splitOn, List.mem_cons, ← ih]
    by_cases hd : d = sep
    · simp [hd, hc]
    · obtain ⟨first, others, hrest⟩ := List.exists_cons_of_ne_nil (splitOn_ne_nil sep rest)
      simp [hd, hrest, or_assoc]

/-! ### Texts on one line -/

def OneLine (s : String) : Prop :=
  '\n' ∉ s.toList

@[simp]
theorem oneLine_append {s t : String} : OneLine (s ++ t) ↔ OneLine s ∧ OneLine t := by
  simp [OneLine]

@[simp]
theorem oneLine_ofList {s : List Char} : OneLine (String.ofList s) ↔ '\n' ∉ s := by
  simp [OneLine]

theorem oneLine_literal {s : List Char} (h : s.contains '\n' = false) :
    OneLine (String.ofList s) := by
  rw [oneLine_ofList]
  simpa using h

theorem oneLine_of_mem_splitLines {text line : String} (h : line ∈ splitLines text) :
    OneLine line := by
  obtain ⟨piece, hpiece, rfl⟩ := List.mem_map.mp h
  rw [oneLine_ofList]
  exact fun hmem => not_mem_of_mem_splitOn hpiece (mem_of_mem_trim hmem)

theorem trim_of_mem_splitLines {text line : String} (h : line ∈ splitLines text) :
    trim line.toList = line.toList := by
  obtain ⟨piece, -, rfl⟩ := List.mem_map.mp h
  simp

theorem newline_not_mem_flatMap {s : List Char} {f : Char → List Char}
    (hf : ∀ c, c ≠ '\n' → '\n' ∉ f c) (hs : '\n' ∉ s) : '\n' ∉ s.flatMap f := by
  intro hmem
  obtain ⟨c, hc, hfeed⟩ := List.mem_flatMap.mp hmem
  have hne : c ≠ '\n' := by
    rintro rfl
    exact hs hc
  exact hf c hne hfeed

theorem not_mem_intercalate {c : Char} {sep : List Char} {pieces : List (List Char)}
    (hsep : c ∉ sep) (hpieces : ∀ piece ∈ pieces, c ∉ piece) : c ∉ sep.intercalate pieces := by
  induction pieces with
  | nil => simp
  | cons piece pieces ih =>
    rw [List.forall_mem_cons] at hpieces
    cases pieces with
    | nil => simpa using hpieces.1
    | cons next pieces =>
      rw [List.intercalate_cons_cons, List.mem_append, List.mem_append, not_or, not_or]
      exact ⟨⟨hpieces.1, hsep⟩, ih hpieces.2⟩

theorem oneLine_intercalate {sep : String} {pieces : List String} (hsep : OneLine sep)
    (hpieces : ∀ piece ∈ pieces, OneLine piece) : OneLine (sep.intercalate pieces) := by
  rw [OneLine, String.toList_intercalate]
  apply not_mem_intercalate hsep
  intro piece hpiece
  obtain ⟨s, hs, rfl⟩ := List.mem_map.mp hpiece
  exact hpieces s hs

/-- The text of lines that each end in a line feed. -/
def endedLines (lines : List String) : List Char :=
  lines.flatMap fun line => line.toList ++ ['\n']

@[simp]
theorem endedLines_nil : endedLines [] = [] := rfl

@[simp]
theorem endedLines_cons (line : String) (lines : List String) :
    endedLines (line :: lines) = line.toList ++ '\n' :: endedLines lines := by
  simp [endedLines]

@[simp]
theorem endedLines_append (lines others : List String) :
    endedLines (lines ++ others) = endedLines lines ++ endedLines others :=
  List.flatMap_append

theorem toList_intercalate_append {lines : List String} (h : lines ≠ []) :
    ("\n".intercalate lines).toList ++ ['\n'] = endedLines lines := by
  induction lines with
  | nil => exact absurd rfl h
  | cons line lines ih =>
    cases lines with
    | nil => simp
    | cons next lines =>
      rw [String.intercalate_cons_cons, String.toList_append, String.toList_append,
        List.append_assoc, ih (by simp)]
      simp

theorem toList_intercalate_of_append {lines others : List String} (h : others ≠ []) :
    ("\n".intercalate (lines ++ others)).toList =
      endedLines lines ++ ("\n".intercalate others).toList := by
  rw [← List.append_left_inj ['\n'], List.append_assoc, toList_intercalate_append h,
    toList_intercalate_append (List.append_ne_nil_of_right_ne_nil lines h), endedLines_append]

theorem splitOn_endedLines_append {lines : List String} (hlines : ∀ line ∈ lines, OneLine line)
    (rest : List Char) :
    splitOn '\n' (endedLines lines ++ rest) =
      lines.map String.toList ++ splitOn '\n' rest := by
  induction lines with
  | nil => rfl
  | cons line lines ih =>
    rw [List.forall_mem_cons] at hlines
    rw [endedLines_cons, List.append_assoc, List.cons_append, splitOn_eq,
      List.splitOn_append_cons_self_of_not_mem hlines.1, ← splitOn_eq, ih hlines.2]
    rfl

/-! ### Last characters -/

theorem getLast?_literal {chars : List Char} {c : Char} (h : chars.getLast? = some c) :
    (String.ofList chars).toList.getLast? = some c := by
  rw [String.toList_ofList, h]

theorem getLast?_toList_append {s t : String} {c : Char} (h : t.toList.getLast? = some c) :
    (s ++ t).toList.getLast? = some c := by
  rw [String.toList_append, List.getLast?_append, h, Option.some_or]

theorem not_isBlank_of_isDigit {c : Char} (h : c.isDigit) : ¬isBlank c := by
  have hrange : 48 ≤ c.toNat ∧ c.toNat ≤ 57 := by
    simpa [Char.isDigit, UInt32.le_iff_toNat_le] using h
  simp only [isBlank, Bool.or_eq_true, Bool.and_eq_true, decide_eq_true_eq, beq_iff_eq]
  omega

theorem isDigit_of_mem_toString {n : Nat} {c : Char} (h : c ∈ (toString n).toList) : c.isDigit :=
  Nat.isDigit_of_mem_toDigits (by decide) (by decide) (Nat.toList_repr ▸ h)

theorem exists_getLast?_toString (n : Nat) :
    ∃ c, (toString n).toList.getLast? = some c ∧ c.isDigit := by
  have hne : (toString n).toList ≠ [] := by
    have hdigits : (toString n).toList = Nat.toDigits 10 n := Nat.toList_repr
    rw [hdigits]
    exact Nat.toDigits_ne_nil
  exact ⟨_, List.getLast?_eq_some_getLast hne, isDigit_of_mem_toString (List.getLast_mem hne)⟩

theorem oneLine_toString (n : Nat) : OneLine (toString n) :=
  fun hmem => absurd (isDigit_of_mem_toString hmem) (by decide)

/-! ### Lines that are not blank -/

section SolidLines

variable {c : Char} {s : List Char}

theorem splitOn_concat (sep c : Char) (s : List Char) : ∃ others last,
    splitOn sep s = others ++ [last] ∧
      splitOn sep (s ++ [c]) = others ++ if c = sep then [last, []] else [last ++ [c]] := by
  induction s with
  | nil =>
    refine ⟨[], [], rfl, ?_⟩
    by_cases hc : c = sep <;> simp [splitOn, hc]
  | cons d s ih =>
    obtain ⟨others, last, hs, hconcat⟩ := ih
    rw [List.cons_append, splitOn, splitOn, hs, hconcat]
    by_cases hd : d = sep
    · exact ⟨[] :: others, last, by simp [hd], by simp [hd]⟩
    · cases others with
      | nil =>
        refine ⟨[], d :: last, by simp [hd], ?_⟩
        rw [if_neg hd]
        by_cases hc : c = sep <;> simp [hc]
      | cons piece others =>
        exact ⟨(d :: piece) :: others, last, by simp [hd], by simp [hd]⟩

theorem unifyBreaks_cons {d : Char} (h : d = '\r' → s.head? ≠ some '\n') :
    unifyBreaks (d :: s) = (if d = '\r' then '\n' else d) :: unifyBreaks s := by
  rw [unifyBreaks]
  rintro rest rfl rfl
  exact h rfl rfl

/-- A text can be cut anywhere but between a carriage return and a line feed. -/
theorem unifyBreaks_append {t : List Char} (h : s.getLast? = some '\r' → t.head? ≠ some '\n') :
    unifyBreaks (s ++ t) = unifyBreaks s ++ unifyBreaks t := by
  fun_induction unifyBreaks s with
  | case1 => rfl
  | case2 rest ih =>
    have hrest : rest.getLast? = some '\r' → t.head? ≠ some '\n' := by
      intro hlast
      refine h ?_
      rw [List.getLast?_cons, List.getLast?_cons, hlast]
      rfl
    rw [List.cons_append, List.cons_append, unifyBreaks, ih hrest, List.cons_append]
  | case3 d rest hbreak ih =>
    have hhead : d = '\r' → (rest ++ t).head? ≠ some '\n' := by
      rintro rfl
      cases rest with
      | nil => exact h rfl
      | cons e more =>
        intro he
        obtain rfl := Option.some.inj he
        exact hbreak more rfl rfl
    have hrest : rest.getLast? = some '\r' → t.head? ≠ some '\n' := by
      intro hlast
      refine h ?_
      rw [List.getLast?_cons, hlast]
      rfl
    rw [List.cons_append, unifyBreaks_cons hhead, ih hrest, List.cons_append]

theorem unifyBreaks_eq_self (h : '\r' ∉ s) : unifyBreaks s = s := by
  induction s with
  | nil => rfl
  | cons c s ih =>
    rw [List.mem_cons, not_or] at h
    rw [unifyBreaks_cons fun hc => absurd hc.symm h.1, if_neg (Ne.symm h.1), ih h.2]

theorem unifyBreaks_concat (s : List Char) (c : Char) :
    unifyBreaks (s ++ [c]) = unifyBreaks s ∨
      unifyBreaks (s ++ [c]) = unifyBreaks s ++ [if c = '\r' then '\n' else c] := by
  by_cases hpair : s.getLast? = some '\r' ∧ c = '\n'
  · obtain ⟨hlast, rfl⟩ := hpair
    obtain ⟨start, rfl⟩ := List.getLast?_eq_some_iff.mp hlast
    have hreturn : unifyBreaks (start ++ ['\r']) = unifyBreaks start ++ ['\n'] :=
      unifyBreaks_append fun _ => by simp
    have hboth : unifyBreaks (start ++ ['\r', '\n']) = unifyBreaks start ++ ['\n'] :=
      unifyBreaks_append fun _ => by simp
    left
    rw [List.append_assoc, List.singleton_append, hboth, hreturn]
  · right
    have hsplit : s.getLast? = some '\r' → [c].head? ≠ some '\n' :=
      fun hlast hfeed => hpair ⟨hlast, by simpa using hfeed⟩
    rw [unifyBreaks_append hsplit, unifyBreaks_cons (by simp)]
    rfl

theorem all_isBlank_unifyBreaks (h : s.all isBlank) : (unifyBreaks s).all isBlank := by
  fun_induction unifyBreaks s with
  | case1 => rfl
  | case2 rest ih =>
    simp only [List.all_cons, Bool.and_eq_true] at h ⊢
    exact ⟨h.2.1, ih h.2.2⟩
  | case3 d rest _ ih =>
    simp only [List.all_cons, Bool.and_eq_true] at h ⊢
    refine ⟨?_, ih h.2⟩
    split
    · rfl
    · exact h.1

theorem trimLeft_unifyBreaks (s : List Char) :
    trimLeft (unifyBreaks s) = unifyBreaks (trimLeft s) := by
  have hsplit : s.takeWhile isBlank ++ trimLeft s = s := List.takeWhile_append_dropWhile
  have hblanks : (unifyBreaks (s.takeWhile isBlank)).all isBlank :=
    all_isBlank_unifyBreaks List.all_takeWhile
  have hhead : ∀ c ∈ (trimLeft s).head?, ¬isBlank c :=
    fun c hc => not_isBlank_of_mem_head?_trim (head?_trim s ▸ hc)
  conv_lhs =>
    rw [← hsplit, unifyBreaks_append fun _ hfeed => hhead '\n' hfeed (by decide),
      trimLeft_append_of_blank hblanks]
  refine trimLeft_eq_self fun c hc => ?_
  cases hleft : trimLeft s with
  | nil =>
    rw [hleft] at hc
    cases hc
  | cons d rest =>
    have hd : ¬isBlank d := hhead d (by rw [hleft]; rfl)
    have hreturn : d ≠ '\r' := by
      rintro rfl
      exact hd (by decide)
    rw [hleft, unifyBreaks_cons fun h => absurd h hreturn, if_neg hreturn] at hc
    exact Option.some.inj hc ▸ hd

theorem exists_unifyBreaks_eq_feed {d : Char} (h : d = '\r' ∨ d = '\n') :
    ∃ rest, unifyBreaks (d :: s) = '\n' :: rest := by
  by_cases hpair : d = '\r' ∧ s.head? = some '\n'
  · obtain ⟨rfl, hs⟩ := hpair
    obtain ⟨rest, rfl⟩ := List.head?_eq_some_iff.mp hs
    exact ⟨unifyBreaks rest, rfl⟩
  · refine ⟨unifyBreaks s, ?_⟩
    rw [unifyBreaks_cons (not_and.mp hpair)]
    rcases h with rfl | rfl <;> rfl

/-- A beginning without breaks is the same before and after. -/
theorem isPrefix_unifyBreaks_iff {lead : List Char} (hfeed : '\n' ∉ lead) (hreturn : '\r' ∉ lead) :
    lead <+: unifyBreaks s ↔ lead <+: s := by
  induction lead generalizing s with
  | nil => simp
  | cons b lead ih =>
    rw [List.mem_cons, not_or] at hfeed hreturn
    cases s with
    | nil => rfl
    | cons c s =>
      by_cases hc : c = '\r' ∨ c = '\n'
      · obtain ⟨rest, hrest⟩ := exists_unifyBreaks_eq_feed hc
        rw [hrest, List.cons_prefix_cons, List.cons_prefix_cons]
        refine iff_of_false (fun h => hfeed.1 h.1.symm) fun h => ?_
        rcases hc with rfl | rfl
        · exact hreturn.1 h.1.symm
        · exact hfeed.1 h.1.symm
      · rw [not_or] at hc
        rw [unifyBreaks_cons fun h => absurd h hc.1, if_neg hc.1, List.cons_prefix_cons,
          List.cons_prefix_cons, ih hfeed.2 hreturn.2]

/-- The trimmed lines of a text that are not blank. -/
def solidLines (s : List Char) : List (List Char) :=
  ((splitOn '\n' (unifyBreaks s)).map trim).filter (!·.isEmpty)

theorem solidLines_cons_of_blank (h : isBlank c) : solidLines (c :: s) = solidLines s := by
  by_cases hpair : c = '\r' ∧ s.head? = some '\n'
  · obtain ⟨rfl, hs⟩ := hpair
    obtain ⟨rest, rfl⟩ := List.head?_eq_some_iff.mp hs
    rw [solidLines, solidLines, unifyBreaks, unifyBreaks_cons (by simp)]
    rfl
  · rw [solidLines, unifyBreaks_cons (not_and.mp hpair), splitOn]
    by_cases hfeed : (if c = '\r' then '\n' else c) = '\n'
    · rw [if_pos hfeed]
      rfl
    · obtain ⟨piece, others, hpieces⟩ :=
        List.exists_cons_of_ne_nil (splitOn_ne_nil '\n' (unifyBreaks s))
      have hblank : isBlank (if c = '\r' then '\n' else c) := by
        split
        · rfl
        · exact h
      rw [if_neg hfeed, solidLines, hpieces]
      dsimp only
      rw [List.map_cons, List.map_cons, trim_cons_of_blank hblank]

theorem solidLines_concat_of_blank (h : isBlank c) : solidLines (s ++ [c]) = solidLines s := by
  rw [solidLines, solidLines]
  rcases unifyBreaks_concat s c with hsame | hmore
  · rw [hsame]
  · have hblank : isBlank (if c = '\r' then '\n' else c) := by
      split
      · rfl
      · exact h
    obtain ⟨others, last, hpieces, hconcat⟩ :=
      splitOn_concat '\n' (if c = '\r' then '\n' else c) (unifyBreaks s)
    rw [hmore, hconcat, hpieces, List.map_append, List.map_append, List.filter_append,
      List.filter_append]
    congr 1
    by_cases hfeed : (if c = '\r' then '\n' else c) = '\n'
    · rw [if_pos hfeed]
      cases htrim : trim last <;> simp [htrim]
    · rw [if_neg hfeed, List.map_singleton, trim_append_of_blank (by simpa using hblank),
        List.map_singleton]

/-- A line feed between two texts keeps their lines apart. It may complete a break that the first
text ends with, and then there is one blank line less. -/
theorem solidLines_append_feed (s t : List Char) :
    solidLines (s ++ '\n' :: t) = solidLines s ++ solidLines t := by
  obtain ⟨u, hbreaks, hlines⟩ : ∃ u, unifyBreaks (s ++ '\n' :: t) =
      unifyBreaks u ++ '\n' :: unifyBreaks t ∧ solidLines u = solidLines s := by
    by_cases hlast : s.getLast? = some '\r'
    · obtain ⟨u, rfl⟩ := List.getLast?_eq_some_iff.mp hlast
      refine ⟨u, ?_, (solidLines_concat_of_blank (by decide)).symm⟩
      rw [List.append_assoc, List.singleton_append, unifyBreaks_append (by simp), unifyBreaks]
    · refine ⟨s, ?_, rfl⟩
      rw [unifyBreaks_append fun h => absurd h hlast, unifyBreaks_cons (by simp)]
      rfl
  rw [solidLines, hbreaks, splitOn_eq, List.splitOn_append_cons_self, ← splitOn_eq, ← splitOn_eq,
    List.map_append, List.filter_append, ← solidLines, ← solidLines, hlines]

theorem solidLines_intercalate (texts : List String) :
    solidLines ("\n".intercalate texts).toList =
      texts.flatMap fun text => solidLines text.toList := by
  induction texts with
  | nil => rfl
  | cons text texts ih =>
    cases texts with
    | nil => simp
    | cons next texts =>
      have hjoined : ("\n".intercalate (text :: next :: texts)).toList =
          text.toList ++ '\n' :: ("\n".intercalate (next :: texts)).toList := by
        rw [String.intercalate_cons_cons, String.toList_append, String.toList_append,
          List.append_assoc]
        rfl
      rw [hjoined, solidLines_append_feed, ih]
      rfl

theorem solidLines_trim (s : List Char) : solidLines (trim s) = solidLines s := by
  obtain ⟨before, after, hbefore, hafter, hs⟩ := exists_blanks_trim s
  have hleft : ∀ rest, solidLines (before ++ rest) = solidLines rest := by
    intro rest
    clear hs
    induction before with
    | nil => rfl
    | cons c before ih =>
      rw [List.all_cons, Bool.and_eq_true] at hbefore
      rw [List.cons_append, solidLines_cons_of_blank hbefore.1, ih hbefore.2]
  have hright : ∀ rest, solidLines (rest ++ after) = solidLines rest := by
    intro rest
    clear hs
    induction after generalizing rest with
    | nil => rw [List.append_nil]
    | cons c after ih =>
      rw [List.all_cons, Bool.and_eq_true] at hafter
      rw [List.append_cons, ih hafter.2, solidLines_concat_of_blank hafter.1]
  conv_rhs => rw [hs]
  rw [List.append_assoc, hleft, hright]

end SolidLines

end StepGlue.Text
