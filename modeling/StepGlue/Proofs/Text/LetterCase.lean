import StepGlue.Proofs.Text.Lines
import StepGlue.Text.LetterCase

/-!
# Small letters make no blank
-/

namespace StepGlue.Text

variable {c d : Char} {s : List Char}

theorem not_isBlank_findRun_lowerRuns (h : ¬isBlank c) : ¬isBlank (findRun lowerRuns c) := by
  have htargets : ∀ run ∈ lowerRuns, ∀ i < run.last - run.first + 1,
      ¬isBlank (Char.ofNat (run.target + i)) := by
    decide +kernel
  rw [findRun]
  cases hfind : lowerRuns.findSome? (fun run => run.map? c.toNat) with
  | none => exact h
  | some n =>
    obtain ⟨run, hrun, hn⟩ := List.exists_of_findSome?_eq_some hfind
    rw [CaseRun.map?] at hn
    split at hn
    · rename_i hinside
      obtain rfl := Option.some.inj hn
      simp only [Bool.and_eq_true, decide_eq_true_eq] at hinside
      exact htargets run hrun _ (by omega)
    · exact absurd hn (by simp)

theorem not_isBlank_of_mem_lowerChar (h : ¬isBlank c) (hd : d ∈ lowerChar c) : ¬isBlank d := by
  rw [lowerChar] at hd
  split at hd
  · rename_i hascii
    have hall : ∀ n < 0x80, ¬isBlank (Char.ofNat n) → ¬isBlank (Char.ofNat n).toLower := by
      decide +kernel
    have hc := hall c.toNat hascii
    rw [Char.ofNat_toNat] at hc
    rw [List.mem_singleton.mp hd]
    exact hc h
  · split at hd
    · have hdotted : ['i', '\u0307'].all fun d => !isBlank d := by decide +kernel
      simpa using List.all_eq_true.mp hdotted d hd
    · rw [List.mem_singleton.mp hd]
      exact not_isBlank_findRun_lowerRuns h

theorem not_isBlank_of_mem_lower (h : ∀ c ∈ s, ¬isBlank c) (hd : d ∈ lower s) : ¬isBlank d := by
  rw [lower] at hd
  generalize [] = before at hd
  induction s generalizing before with
  | nil => exact absurd hd (by simp [lowerAfter])
  | cons c rest ih =>
    rw [List.forall_mem_cons] at h
    rw [lowerAfter, List.mem_append] at hd
    rcases hd with hd | hd
    · split at hd
      · have hsigma : ¬isBlank 'ς' ∧ ¬isBlank 'σ' := by decide
        split at hd
        · rw [List.mem_singleton.mp hd]
          exact hsigma.1
        · rw [List.mem_singleton.mp hd]
          exact hsigma.2
      · exact not_isBlank_of_mem_lowerChar h.1 hd
    · exact ih h.2 _ hd

end StepGlue.Text
