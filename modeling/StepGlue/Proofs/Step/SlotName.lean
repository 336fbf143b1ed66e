import StepGlue.Proofs.Text.LetterCase
import StepGlue.Proofs.Text.Words
import StepGlue.Step.Segment

/-!
# Names of parameters

A name is counted out for its kind or spelled by a placeholder. Either way it has no blanks, for the
words of a placeholder are joined by underscores and small letters are none. Joining the words is
the same as trimming and putting an underscore for every run of blanks.
-/

namespace StepGlue.Segment

open Text Parameter

variable {kind : Kind} {ordinal : Nat} {value content : List Char} {c : Char}

/-! ### Words joined by underscores -/

/-- Puts an underscore for every longest run of blanks, in place of its last blank. -/
def underscored : List Char → List Char
  | [] => []
  | c :: rest =>
    if isBlank c then
      if rest.head?.any isBlank then underscored rest else '_' :: underscored rest
    else c :: underscored rest

theorem underscored_cons_of_blank (h : isBlank c) (s : List Char) :
    underscored (c :: s) = '_' :: underscored (trimLeft s) := by
  induction s generalizing c with
  | nil => simp [underscored, h, trimLeft]
  | cons d rest ih =>
    by_cases hd : isBlank d
    · rw [underscored, if_pos h, if_pos (by simpa using hd), ih hd, trimLeft_cons_of_blank hd]
    · rw [underscored, if_pos h, if_neg (by simpa using hd), trimLeft_cons_of_not_blank hd]

theorem underscored_cons_of_not_blank (h : ¬isBlank c) (s : List Char) :
    underscored (c :: s) = c :: underscored s := by
  rw [underscored, if_neg h]

/-- From word to word: a blank after a word starts a run that another word ends. -/
theorem intercalate_words {s : List Char} (hlast : ∀ c ∈ s.getLast?, ¬isBlank c) :
    ['_'].intercalate (words s) = underscored (trimLeft s) := by
  fun_induction words s with
  | case1 => simp [trimLeft, underscored]
  | case2 c hc => exact absurd hc (hlast c rfl)
  | case3 c hc =>
    rw [trimLeft_cons_of_not_blank hc, underscored_cons_of_not_blank hc, underscored,
      List.intercalate_singleton]
  | case4 c d rest hc ih => rw [ih hlast, trimLeft_cons_of_blank hc]
  | case5 c d rest hc hd ih =>
    -- The last character is no blank, so another word follows.
    have hne : words (d :: rest) ≠ [] := by
      intro hnil
      have hend := List.getLast?_eq_some_getLast (List.cons_ne_nil d rest)
      exact hlast _ hend (isBlank_of_words_eq_nil hnil (List.getLast_mem _))
    obtain ⟨word, others, hwords⟩ := List.exists_cons_of_ne_nil hne
    have hrest := ih hlast
    rw [hwords, trimLeft_cons_of_blank hd] at hrest
    rw [trimLeft_cons_of_not_blank hc, underscored_cons_of_not_blank hc,
      underscored_cons_of_blank hd, ← hrest, hwords, List.intercalate_cons_cons]
    rfl
  | case6 c d rest hc hd hrest ih =>
    rw [words_cons_of_not_blank hd] at hrest
    exact absurd hrest (List.cons_ne_nil _ _)
  | case7 c d rest hc hd word others hrest ih =>
    have hmore := ih hlast
    rw [hrest, trimLeft_cons_of_not_blank hd] at hmore
    rw [trimLeft_cons_of_not_blank hc, underscored_cons_of_not_blank hc, ← hmore]
    cases others with
    | nil => simp
    | cons next others => simp

theorem spelledName_eq (content : List Char) :
    spelledName content = lower (underscored (trim content)) := by
  have hhead : trimLeft (trim content) = trim content :=
    trimLeft_eq_self fun c => not_isBlank_of_mem_head?_trim
  rw [spelledName, ← words_trim, intercalate_words fun c => not_isBlank_of_mem_getLast?_trim, hhead]

/-! ### Names -/

theorem not_isBlank_of_mem_spelledName (h : c ∈ spelledName content) : ¬isBlank c := by
  refine not_isBlank_of_mem_lower (fun d hd hblank => ?_) h
  refine not_mem_intercalate (fun hsep => ?_) (fun word hword hmem => ?_) hd
  · rw [List.mem_singleton.mp hsep] at hblank
    exact absurd hblank (by decide)
  · exact (mem_and_not_isBlank_of_mem_words hword hmem).2 hblank

theorem slotName_of_spelled (h : spelledName value ≠ []) (ordinal : Nat) :
    slotName .placeholder ordinal value = String.ofList (spelledName value) := by
  rw [slotName, if_pos rfl, if_neg (by rwa [List.isEmpty_iff])]

theorem slotName_of_not_spelled (h : spelledName value = []) (ordinal : Nat) :
    slotName .placeholder ordinal value = "arg" ++ toString ordinal := by
  rw [slotName, if_pos rfl, if_pos (by rwa [List.isEmpty_iff]), Kind.countedName]

theorem slotName_of_counted (h : kind ≠ .placeholder) (ordinal : Nat) (value : List Char) :
    slotName kind ordinal value = kind.countedName ++ toString ordinal := by
  rw [slotName, if_neg h]
  rfl

theorem slotName_eq (kind : Kind) (ordinal : Nat) (value : List Char) :
    slotName kind ordinal value = kind.countedName ++ toString ordinal ∨
      kind = .placeholder ∧ spelledName value ≠ [] ∧
        slotName kind ordinal value = String.ofList (spelledName value) := by
  by_cases hkind : kind = .placeholder
  · subst hkind
    by_cases hempty : spelledName value = []
    · exact .inl (slotName_of_not_spelled hempty ordinal)
    · exact .inr ⟨rfl, hempty, slotName_of_spelled hempty ordinal⟩
  · exact .inl (slotName_of_counted hkind ordinal value)

theorem not_isBlank_of_mem_slotName (h : c ∈ (slotName kind ordinal value).toList) :
    ¬isBlank c := by
  rcases slotName_eq kind ordinal value with hcounted | ⟨-, -, hspelled⟩
  · rw [hcounted, String.toList_append, List.mem_append] at h
    rcases h with h | h
    · have hword : kind.countedName.toList.all fun c => !isBlank c := by
        cases kind <;> decide +kernel
      simpa using List.all_eq_true.mp hword c h
    · exact not_isBlank_of_isDigit (isDigit_of_mem_toString h)
  · rw [hspelled, String.toList_ofList] at h
    exact not_isBlank_of_mem_spelledName h

/-- A name ends with a digit if it was counted out, and at any rate with no blank. -/
theorem exists_getLast?_slotName (kind : Kind) (ordinal : Nat) (value : List Char) :
    ∃ c, (slotName kind ordinal value).toList.getLast? = some c ∧ ¬isBlank c ∧
      (kind ≠ .placeholder → c.isDigit) := by
  rcases slotName_eq kind ordinal value with hcounted | ⟨hkind, hne, hspelled⟩
  · obtain ⟨c, hlast, hdigit⟩ := exists_getLast?_toString ordinal
    refine ⟨c, ?_, not_isBlank_of_isDigit hdigit, fun _ => hdigit⟩
    rw [hcounted]
    exact getLast?_toList_append hlast
  · refine ⟨(spelledName value).getLast hne, ?_, ?_, fun hother => absurd hkind hother⟩
    · rw [hspelled, String.toList_ofList, List.getLast?_eq_some_getLast hne]
    · exact not_isBlank_of_mem_spelledName (List.getLast_mem hne)

theorem exists_slotName_eq_of_mem_parametersAfter {segments : List Segment} {seen : List Kind}
    {p : Parameter} (h : p ∈ parametersAfter seen segments) :
    ∃ ordinal value, p.name = slotName p.kind ordinal value := by
  induction segments generalizing seen with
  | nil => exact absurd h (by simp [parametersAfter])
  | cons segment segments ih =>
    cases segment with
    | literal text => exact ih h
    | slot kind value =>
      rcases List.mem_cons.mp h with rfl | h
      · exact ⟨_, value, rfl⟩
      · exact ih h

end StepGlue.Segment
