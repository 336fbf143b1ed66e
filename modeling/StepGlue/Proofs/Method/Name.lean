import StepGlue.Method.Name
import StepGlue.Proofs.Text.Blank

/-!
# Method names are spelled in letters and digits
-/

namespace StepGlue.MethodName

open Text

variable {c : Char}

theorem toNat_lt_of_isAlphanum (h : c.isAlphanum) : c.toNat < 128 := by
  have hranges : ((65 ≤ c.toNat ∧ c.toNat ≤ 90) ∨ (97 ≤ c.toNat ∧ c.toNat ≤ 122)) ∨
      (48 ≤ c.toNat ∧ c.toNat ≤ 57) := by
    unfold Char.isAlphanum Char.isAlpha Char.isUpper Char.isLower Char.isDigit at h
    simp only [Bool.or_eq_true, Bool.and_eq_true, decide_eq_true_eq] at h
    exact h
  omega

/-- What holds of letters and digits can be looked up. -/
theorem forall_isAlphanum {P : Char → Prop}
    (h : ∀ n < 128, (Char.ofNat n).isAlphanum → P (Char.ofNat n)) (hc : c.isAlphanum) : P c := by
  have hchar := h c.toNat (toNat_lt_of_isAlphanum hc)
  rw [Char.ofNat_toNat] at hchar
  exact hchar hc

/-- Changing the case of a Latin letter leaves it one. -/
theorem isAlphanum_toLower_toUpper (h : c.isAlphanum) :
    c.toLower.isAlphanum ∧ c.toUpper.isAlphanum :=
  forall_isAlphanum (P := fun c => c.toLower.isAlphanum ∧ c.toUpper.isAlphanum)
    (by decide +kernel) h

theorem isAlphanum_of_mem_lowerWord {word : List Char} (hword : ∀ c ∈ word, c.isAlphanum)
    (hc : c ∈ lowerWord word) : c.isAlphanum := by
  obtain ⟨d, hd, rfl⟩ := List.mem_map.mp hc
  exact (isAlphanum_toLower_toUpper (hword d hd)).1

theorem isAlphanum_of_mem_capitalized {word : List Char} (hword : ∀ c ∈ word, c.isAlphanum)
    (hc : c ∈ capitalized word) : c.isAlphanum := by
  cases word with
  | nil => exact absurd hc (by simp [capitalized])
  | cons d rest =>
    rw [List.forall_mem_cons] at hword
    rcases List.mem_cons.mp hc with rfl | hc
    · exact (isAlphanum_toLower_toUpper hword.1).2
    · exact isAlphanum_of_mem_lowerWord hword.2 hc

theorem isAlphanum_of_mem_camelCase {ws : List (List Char)}
    (hwords : ∀ word ∈ ws, ∀ c ∈ word, c.isAlphanum) (hc : c ∈ camelCase ws) : c.isAlphanum := by
  cases ws with
  | nil => exact absurd hc (by simp [camelCase])
  | cons word others =>
    rw [List.forall_mem_cons] at hwords
    rcases List.mem_append.mp hc with hc | hc
    · exact isAlphanum_of_mem_lowerWord hwords.1 hc
    · obtain ⟨other, hother, hc⟩ := List.mem_flatMap.mp hc
      exact isAlphanum_of_mem_capitalized (hwords.2 other hother) hc

theorem isAlphanum_of_mem_ofText {text : String} (hc : c ∈ (ofText text).toList) :
    c.isAlphanum := by
  have hwords : ∀ word ∈ words (text.toList.filter isKept), ∀ c ∈ word, c.isAlphanum := by
    intro word hword d hd
    obtain ⟨hmem, hblank⟩ := mem_and_not_isBlank_of_mem_words hword hd
    have hkept := (List.mem_filter.mp hmem).2
    simpa [isKept, hblank] using hkept
  rw [ofText] at hc
  split at hc
  · have hall : fallback.toList.all Char.isAlphanum := by decide +kernel
    exact List.all_eq_true.mp hall c hc
  · rename_i hname
    rw [String.toList_ofList] at hc
    apply isAlphanum_of_mem_camelCase hwords
    exact (List.dropWhile_suffix Char.isDigit).subset hc

end StepGlue.MethodName
