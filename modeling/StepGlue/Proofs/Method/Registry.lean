import Mathlib.Data.List.Perm.Subperm
import Mathlib.Data.List.Nodup
import StepGlue.Method.Registry

/-!
# Names that a registry gives out

A name that is taken gets a number. As many numbers as there are names in use and one more are
tried, so the search ends at a name that is not in use.
-/

namespace StepGlue.Registry

variable {used : List String} {base : String}

theorem numbered_inj {m n : Nat} (h : base ++ toString m = base ++ toString n) : m = n := by
  have hstrings := (String.append_right_inj base).mp h
  have hdigits : Nat.toDigits 10 m = Nat.toDigits 10 n := by
    rw [← Nat.toList_repr, ← Nat.toList_repr]
    exact congrArg String.toList hstrings
  rw [← Nat.ofDigitChars_ten_toDigits (n := m), hdigits, Nat.ofDigitChars_ten_toDigits]

/-- Of more numbered names than there are names in use, one is free. -/
theorem exists_free_number (used : List String) (base : String) (start : Nat) :
    ∃ k, start ≤ k ∧ k ≤ start + used.length ∧ base ++ toString k ∉ used := by
  by_contra hnone
  have hsubset : (List.range (used.length + 1)).map (fun i => base ++ toString (start + i)) ⊆
      used := by
    intro name hname
    obtain ⟨i, hi, rfl⟩ := List.mem_map.mp hname
    rw [List.mem_range] at hi
    by_contra hfree
    exact hnone ⟨start + i, by omega, by omega, hfree⟩
  have hnodup : ((List.range (used.length + 1)).map
      fun i => base ++ toString (start + i)).Nodup := by
    apply List.nodup_range.map
    intro i j heq
    have hij := numbered_inj heq
    omega
  have hle := (List.subperm_of_subset hnodup hsubset).length_le
  rw [List.length_map, List.length_range] at hle
  omega

/-! ### The search -/

/-- The search that tries one number after the other, without a bound, ends at a number. -/
inductive SearchEnds (used : List String) (base : String) : Nat → Nat → Prop
  | found {n : Nat} (h : base ++ toString n ∉ used) : SearchEnds used base n n
  | next {n k : Nat} (h : base ++ toString n ∈ used) (hnext : SearchEnds used base (n + 1) k) :
    SearchEnds used base n k

theorem SearchEnds.not_mem {start k : Nat} (h : SearchEnds used base start k) :
    base ++ toString k ∉ used := by
  induction h with
  | found hfree => exact hfree
  | next _ _ ih => exact ih

theorem SearchEnds.mem_of_lt {start k j : Nat} (h : SearchEnds used base start k)
    (hstart : start ≤ j) (hlt : j < k) : base ++ toString j ∈ used := by
  induction h with
  | found _ => omega
  | @next n k htaken _ ih =>
    by_cases heq : j = n
    · exact heq ▸ htaken
    · exact ih (by omega) hlt

theorem SearchEnds.le {start k : Nat} (h : SearchEnds used base start k) : start ≤ k := by
  induction h with
  | found _ => exact Nat.le_refl _
  | next _ _ ih => omega

/-- With enough attempts for one free number, the bound is never met. -/
theorem searchEnds_of_attempts {start attempts : Nat}
    (h : ∃ k, start ≤ k ∧ k ≤ start + attempts ∧ base ++ toString k ∉ used) :
    SearchEnds used base start (freeSuffix used base start attempts) := by
  induction attempts generalizing start with
  | zero =>
    obtain ⟨k, hstart, hend, hfree⟩ := h
    obtain rfl : k = start := by omega
    exact .found hfree
  | succ attempts ih =>
    rw [freeSuffix]
    by_cases htaken : base ++ toString start ∈ used
    · rw [if_pos (List.contains_iff_mem.mpr htaken)]
      obtain ⟨k, hstart, hend, hfree⟩ := h
      have hne : k ≠ start := by
        rintro rfl
        exact hfree htaken
      exact .next htaken (ih ⟨k, by omega, by omega, hfree⟩)
    · rw [if_neg (fun hcontains => htaken (List.contains_iff_mem.mp hcontains))]
      exact .found htaken

theorem searchEnds_freeSuffix (used : List String) (base : String) (start : Nat) :
    SearchEnds used base start (freeSuffix used base start used.length) :=
  searchEnds_of_attempts (exists_free_number used base start)

/-! ### Reserving a name -/

/-- Where the search for a free number starts. -/
def start (r : Registry) (base : String) : Nat :=
  (r.nextSuffix.lookup base).getD 1

theorem contains_iff {r : Registry} {name : String} : r.contains name ↔ name ∈ r.used :=
  List.contains_iff_mem

theorem reserve_of_not_mem {r : Registry} (h : base ∉ r.used) :
    r.reserve base = (base, { r with used := base :: r.used }) := by
  rw [reserve, if_neg (fun hcontains => h (contains_iff.mp hcontains))]

theorem reserve_of_mem {r : Registry} (h : base ∈ r.used) :
    ∃ k, SearchEnds r.used base (r.start base) k ∧
      r.reserve base = (base ++ toString k,
        { used := (base ++ toString k) :: r.used
          nextSuffix := (base, k + 1) :: r.nextSuffix }) := by
  refine ⟨_, searchEnds_freeSuffix r.used base (r.start base), ?_⟩
  rw [reserve, if_pos (contains_iff.mpr h)]
  rfl

theorem reserve_fst_not_mem (r : Registry) (base : String) : (r.reserve base).1 ∉ r.used := by
  by_cases h : base ∈ r.used
  · obtain ⟨k, hk, heq⟩ := reserve_of_mem h
    rw [heq]
    exact hk.not_mem
  · rw [reserve_of_not_mem h]
    exact h

theorem used_reserve (r : Registry) (base : String) :
    (r.reserve base).2.used = (r.reserve base).1 :: r.used := by
  rw [reserve]
  split <;> rfl

/-- What comes out is the name that was asked for, or that name and a number. -/
theorem reserve_fst_eq (r : Registry) (base : String) :
    (r.reserve base).1 = base ∨ ∃ k : Nat, (r.reserve base).1 = base ++ toString k := by
  by_cases h : base ∈ r.used
  · obtain ⟨k, -, heq⟩ := reserve_of_mem h
    exact .inr ⟨k, by rw [heq]⟩
  · rw [reserve_of_not_mem h]
    exact .inl rfl

end StepGlue.Registry
