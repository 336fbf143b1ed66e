import Mathlib.Data.List.Induction
import Mathlib.Data.List.Basic

/-!
# The first of equal items

A list without its repetitions holds each item at the place where it came first. Taking repetitions
away from a part of a list beforehand makes no difference.
-/

namespace StepGlue

variable {α : Type} [BEq α] [LawfulBEq α] {l : List α} {a : α}

theorem eraseDups_concat_of_mem (h : a ∈ l) :
    (l ++ [a]).eraseDups = l.eraseDups := by
  have hgone : [a].removeAll l = [] := by simp [List.removeAll, h]
  rw [List.eraseDups_append, hgone, List.eraseDups_nil, List.append_nil]

theorem eraseDups_concat_of_not_mem (h : a ∉ l) :
    (l ++ [a]).eraseDups = l.eraseDups ++ [a] := by
  have hstays : [a].removeAll l = [a] := by simp [List.removeAll, h]
  rw [List.eraseDups_append, hstays, List.eraseDups_cons, List.filter_nil, List.eraseDups_nil]

theorem eraseDups_eraseDups (l : List α) : l.eraseDups.eraseDups = l.eraseDups := by
  induction l using List.reverseRecOn with
  | nil => rfl
  | append_singleton l a ih =>
    by_cases h : a ∈ l
    · rw [eraseDups_concat_of_mem h, ih]
    · rw [eraseDups_concat_of_not_mem h,
        eraseDups_concat_of_not_mem (fun hmem => h (List.mem_eraseDups.mp hmem)), ih]

theorem eraseDups_eraseDups_append (l more : List α) :
    (l.eraseDups ++ more).eraseDups = (l ++ more).eraseDups := by
  rw [List.eraseDups_append, List.eraseDups_append, eraseDups_eraseDups]
  congr 2
  simp [List.removeAll, List.mem_eraseDups]

theorem eraseDups_append_eraseDups (l more : List α) :
    (l ++ more.eraseDups).eraseDups = (l ++ more).eraseDups := by
  induction more using List.reverseRecOn with
  | nil => rfl
  | append_singleton more a ih =>
    by_cases h : a ∈ more
    · rw [eraseDups_concat_of_mem h, ih, ← List.append_assoc,
        eraseDups_concat_of_mem (List.mem_append_right l h)]
    · rw [eraseDups_concat_of_not_mem h, ← List.append_assoc, ← List.append_assoc]
      by_cases hl : a ∈ l
      · rw [eraseDups_concat_of_mem (List.mem_append_left _ hl),
          eraseDups_concat_of_mem (List.mem_append_left _ hl), ih]
      · rw [eraseDups_concat_of_not_mem (by simp [hl, h, List.mem_eraseDups]),
          eraseDups_concat_of_not_mem (by simp [hl, h]), ih]

theorem pairwise_idxOf_eraseDups (l : List α) :
    l.eraseDups.Pairwise fun a b => l.idxOf a < l.idxOf b := by
  induction l using List.reverseRecOn with
  | nil => exact .nil
  | append_singleton l a ih =>
    have hold : l.eraseDups.Pairwise fun b c => (l ++ [a]).idxOf b < (l ++ [a]).idxOf c := by
      refine ih.imp_of_mem fun {b c} hb hc hlt => ?_
      rwa [List.idxOf_append_of_mem (List.mem_eraseDups.mp hb),
        List.idxOf_append_of_mem (List.mem_eraseDups.mp hc)]
    by_cases h : a ∈ l
    · rwa [eraseDups_concat_of_mem h]
    · rw [eraseDups_concat_of_not_mem h, List.pairwise_append]
      refine ⟨hold, List.pairwise_singleton _ a, fun b hb c hc => ?_⟩
      obtain rfl := List.mem_singleton.mp hc
      have hmem := List.mem_eraseDups.mp hb
      rw [List.idxOf_append_of_mem hmem, List.idxOf_append_of_notMem h]
      exact Nat.lt_of_lt_of_le (List.idxOf_lt_length_iff.mpr hmem) (Nat.le_add_right _ _)

theorem nodup_eraseDups (l : List α) : l.eraseDups.Nodup := by
  refine (pairwise_idxOf_eraseDups l).imp ?_
  rintro a _ hlt rfl
  exact Nat.lt_irrefl _ hlt

end StepGlue
