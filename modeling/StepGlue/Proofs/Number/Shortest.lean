import Mathlib.Data.List.TakeWhile
import StepGlue.Number.Shortest
import StepGlue.Proofs.Number.Double

/-!
# Shortest decimals

A decimal is taken for a double only if it is read back as that double, and if none of the short
ones is, the decimal with the exact value is.
-/

namespace StepGlue

open Nat (ofDigitChars toDigits)

theorem head?_toDigits_ne_zero {n : ℕ} (hn : 0 < n) : (toDigits 10 n).head? ≠ some '0' := by
  induction n using Nat.strongRecOn with
  | ind n ih =>
    by_cases hlt : n < 10
    · have hdigits : ∀ d < 10, 0 < d → [Nat.digitChar d].head? ≠ some '0' := by decide
      rw [Nat.toDigits_of_lt_base hlt]
      exact hdigits n hlt hn
    · rw [Nat.toDigits_of_base_le (by norm_num) (by omega), List.head?_append_of_ne_nil _
        Nat.toDigits_ne_nil]
      exact ih (n / 10) (by omega) (by omega)

namespace Decimal

/-- The number that a decimal stands for. -/
def value (d : Decimal) : ℚ :=
  ofDigitChars 10 d.digits 0 * 10 ^ (d.point - d.digits.length)

/-- Whether a decimal has digits, of which the first is not zero. -/
structure IsNormal (d : Decimal) : Prop where
  isDigit : ∀ c ∈ d.digits, c.isDigit
  ne_nil : d.digits ≠ []
  head?_ne : d.digits.head? ≠ some '0'

/-- The zeros at the end of a number, which a decimal goes without. -/
theorem exists_toDigits_eq (n : ℕ) (grid : ℤ) :
    ∃ k, toDigits 10 n = (ofGrid n grid).digits ++ List.replicate k '0' := by
  refine ⟨((toDigits 10 n).reverse.takeWhile (· == '0')).length, ?_⟩
  have hzeros : (toDigits 10 n).reverse.takeWhile (· == '0') =
      List.replicate ((toDigits 10 n).reverse.takeWhile (· == '0')).length '0' := by
    refine List.eq_replicate_of_mem fun c hc => ?_
    simpa using List.mem_takeWhile_imp hc
  have hsplit := List.takeWhile_append_dropWhile (p := (· == '0')) (l := (toDigits 10 n).reverse)
  rw [hzeros] at hsplit
  have hreversed := congrArg List.reverse hsplit
  rw [List.reverse_reverse, List.reverse_append, List.reverse_replicate] at hreversed
  exact hreversed.symm

theorem ofDigitChars_append_zeros (digits : List Char) (k : ℕ) :
    ofDigitChars 10 (digits ++ List.replicate k '0') 0 = 10 ^ k * ofDigitChars 10 digits 0 := by
  rw [Nat.ofDigitChars_append, Nat.ofDigitChars_replicate_zero]

theorem value_ofGrid (n : ℕ) (grid : ℤ) : (ofGrid n grid).value = n * 10 ^ grid := by
  obtain ⟨k, hk⟩ := exists_toDigits_eq n grid
  have hpoint : (ofGrid n grid).point = ((ofGrid n grid).digits.length + k : ℕ) + grid := by
    change ((toDigits 10 n).length : ℤ) + grid = _
    rw [hk, List.length_append, List.length_replicate]
  have hn : (n : ℚ) = 10 ^ (k : ℤ) * ofDigitChars 10 (ofGrid n grid).digits 0 := by
    have h := Nat.ofDigitChars_ten_toDigits (n := n)
    rw [hk, ofDigitChars_append_zeros] at h
    exact_mod_cast h.symm
  rw [value, hpoint, hn, Nat.cast_add, add_assoc, add_sub_cancel_left, zpow_add₀ (by norm_num)]
  ring

theorem isNormal_ofGrid {n : ℕ} (hn : 0 < n) (grid : ℤ) : (ofGrid n grid).IsNormal := by
  obtain ⟨k, hk⟩ := exists_toDigits_eq n grid
  have hne : (ofGrid n grid).digits ≠ [] := by
    intro hnil
    have h := Nat.ofDigitChars_ten_toDigits (n := n)
    rw [hk, ofDigitChars_append_zeros, hnil, Nat.ofDigitChars_nil] at h
    omega
  refine ⟨fun c hc => ?_, hne, ?_⟩
  · refine Nat.isDigit_of_mem_toDigits (b := 10) (n := n) (by norm_num) (le_refl _) ?_
    rw [hk]
    exact List.mem_append_left _ hc
  · have h := head?_toDigits_ne_zero hn
    rwa [hk, List.head?_append_of_ne_nil _ hne] at h

theorem ofDecimal_of_onGrid? {x : Double} {num den n : ℕ} {grid : ℤ}
    (h : onGrid? x num den grid = some n) : Double.ofDecimal false n grid = x := by
  rw [onGrid?] at h
  dsimp only at h
  split at h <;> rename_i hbelow habove
  · have hbelow := of_decide_eq_true hbelow
    have habove := of_decide_eq_true habove
    obtain rfl := Option.some.inj h
    rw [Double.rounded]
    split
    · exact habove
    · exact hbelow
  · obtain rfl := Option.some.inj h
    exact of_decide_eq_true hbelow
  · obtain rfl := Option.some.inj h
    exact of_decide_eq_true habove
  · simp at h

theorem exact_value (mantissa : ℕ) (exponent : ℤ) :
    (((Double.scaled 2 (-exponent) mantissa 1).1 * Nat.pow 5 (-exponent).toNat : ℕ) : ℚ) *
      10 ^ min exponent 0 = mantissa * 2 ^ exponent := by
  rw [Double.scaled]
  rcases le_total 0 exponent with hpos | hneg
  · obtain ⟨n, rfl⟩ := Int.eq_ofNat_of_zero_le hpos
    by_cases hzero : n = 0
    · simp [hzero]
    · rw [if_neg (by omega)]
      simp
  · obtain ⟨n, hn⟩ := Int.eq_ofNat_of_zero_le (show 0 ≤ -exponent by omega)
    obtain rfl : exponent = -n := by omega
    have htwo : (5 : ℚ) ^ n * ((10 : ℚ) ^ n)⁻¹ = (2 ^ n)⁻¹ := by
      rw [show (10 : ℚ) = 5 * 2 by norm_num, mul_pow, mul_inv, mul_inv_cancel_left₀ (by positivity)]
    simp [zpow_neg, mul_assoc, htwo]

/-- What is found is the decimal of a whole number on a grid, and it is read back. -/
theorem exists_shortest_eq {mantissa : ℕ} {exponent : ℤ} (hne : mantissa ≠ 0)
    (h : (Double.finite false mantissa exponent).IsCanonical) :
    ∃ n grid, 0 < n ∧ shortest mantissa exponent = ofGrid n grid ∧
      Double.ofRat false (n * 10 ^ grid) = .finite false mantissa exponent := by
  have hexact := exact_value mantissa exponent
  rw [shortest]
  dsimp only
  generalize hfound : List.findSome? _ _ = found
  cases found with
  | none =>
    -- no short decimal is read back, so the one with the exact value is taken
    refine ⟨_, _, ?_, rfl, ?_⟩
    · refine Nat.mul_pos ?_ (Nat.pow_pos (by norm_num))
      rw [Double.scaled]
      split
      · exact Nat.pos_of_ne_zero hne
      · exact Nat.mul_pos (Nat.pos_of_ne_zero hne) (Nat.pow_pos (by norm_num))
    · rw [hexact]
      exact Double.ofRat_of_isCanonical h hne
  | some d =>
    obtain ⟨count, -, hcount⟩ := List.exists_of_findSome?_eq_some hfound
    obtain ⟨n, hn, rfl⟩ := Option.map_eq_some_iff.mp hcount
    have hread := ofDecimal_of_onGrid? hn
    rw [Double.ofDecimal_eq_ofRat] at hread
    refine ⟨n, _, Nat.pos_of_ne_zero ?_, rfl, hread⟩
    rintro rfl
    rw [Nat.cast_zero, zero_mul, Double.ofRat, if_pos rfl] at hread
    injection hread with _ hmantissa _
    exact hne hmantissa.symm

theorem isNormal_shortest {negative : Bool} {mantissa : ℕ} {exponent : ℤ} (hne : mantissa ≠ 0)
    (h : (Double.finite negative mantissa exponent).IsCanonical) :
    (shortest mantissa exponent).IsNormal := by
  obtain ⟨n, grid, hn, heq, -⟩ := exists_shortest_eq hne h
  rw [heq]
  exact isNormal_ofGrid hn grid

/-- A double is read back from its shortest decimal. -/
theorem ofRat_value_shortest {negative : Bool} {mantissa : ℕ} {exponent : ℤ} (hne : mantissa ≠ 0)
    (h : (Double.finite negative mantissa exponent).IsCanonical) :
    Double.ofRat negative (shortest mantissa exponent).value =
      .finite negative mantissa exponent := by
  obtain ⟨n, grid, hn, heq, hread⟩ := exists_shortest_eq hne h
  have hcast : (0 : ℚ) < n := by exact_mod_cast hn
  rw [heq, value_ofGrid]
  exact Double.ofRat_finite (by positivity) hread

end Decimal

end StepGlue
