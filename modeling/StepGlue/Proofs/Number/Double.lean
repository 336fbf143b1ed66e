import Mathlib.Algebra.Order.Field.Power
import Mathlib.Algebra.Order.Floor.Semifield
import Mathlib.Data.Rat.Floor
import Mathlib.Tactic.FieldSimp
import Mathlib.Tactic.Linarith
import Mathlib.Tactic.NormNum
import Mathlib.Tactic.Positivity
import Mathlib.Tactic.Ring
import StepGlue.Number.Double

/-!
# Rounding to double precision

The double that is closest to a fraction depends on the fraction alone, not on the numbers that it
is written with. So a decimal is read as a function of its value, and a double is read back from any
decimal that has its exact value.
-/

namespace StepGlue.Double

/-- The whole number closest to a fraction, the even one of two. -/
def nearest (q : ℚ) : ℕ :=
  if 1 < 2 * (q - ⌊q⌋₊) ∨ 2 * (q - ⌊q⌋₊) = 1 ∧ ⌊q⌋₊ % 2 = 1 then ⌊q⌋₊ + 1 else ⌊q⌋₊

theorem nearest_natCast (n : ℕ) : nearest n = n := by
  simp [nearest]

theorem nearest_le {q : ℚ} {n : ℕ} (hq : 0 ≤ q) (h : q < n) : nearest q ≤ n := by
  have hfloor : ⌊q⌋₊ < n := (Nat.floor_lt hq).mpr h
  rw [nearest]
  split <;> omega

theorem le_nearest {q : ℚ} {n : ℕ} (h : n ≤ q) : n ≤ nearest q := by
  have hfloor : n ≤ ⌊q⌋₊ := Nat.le_floor h
  rw [nearest]
  split <;> omega

theorem nearest_of_lt_half {q : ℚ} (h : q < 1 / 2) : nearest q = 0 := by
  have hfloor : ⌊q⌋₊ = 0 := Nat.floor_eq_zero.mpr (by linarith)
  rw [nearest, hfloor, if_neg]
  push_cast
  rintro (hlt | ⟨heq, -⟩) <;> linarith

theorem rounded_eq_nearest (num : ℕ) {den : ℕ} (hden : 0 < den) :
    rounded num den = nearest (num / den) := by
  have hpos : (0 : ℚ) < den := by exact_mod_cast hden
  have hrest : (num : ℚ) / den - (num / den : ℕ) = (num % den : ℕ) / den := by
    have hsplit : (num : ℚ) = den * (num / den : ℕ) + (num % den : ℕ) := by
      exact_mod_cast (Nat.div_add_mod num den).symm
    field_simp
    linarith
  have hlt : 1 < 2 * ((num % den : ℕ) / (den : ℚ)) ↔ den < 2 * (num % den) := by
    rw [← mul_div_assoc, one_lt_div hpos]
    exact_mod_cast Iff.rfl
  have heq : 2 * ((num % den : ℕ) / (den : ℚ)) = 1 ↔ 2 * (num % den) = den := by
    rw [← mul_div_assoc, div_eq_one_iff_eq hpos.ne']
    exact_mod_cast Iff.rfl
  rw [rounded, nearest, Nat.floor_div_eq_div, hrest]
  simp only [hlt, heq, Bool.or_eq_true, Bool.and_eq_true, decide_eq_true_eq, beq_iff_eq]

theorem den_scaled_pos {base : ℕ} (hbase : 0 < base) (exponent : ℤ) (num : ℕ) {den : ℕ}
    (hden : 0 < den) : 0 < (scaled base exponent num den).2 := by
  rw [scaled]
  split
  · exact Nat.mul_pos hden (Nat.pow_pos hbase)
  · exact hden

theorem scaled_div {base : ℕ} (hbase : 0 < base) (exponent : ℤ) (num den : ℕ) :
    ((scaled base exponent num den).1 : ℚ) / (scaled base exponent num den).2 =
      num / den / (base : ℚ) ^ exponent := by
  have hne : (base : ℚ) ≠ 0 := by exact_mod_cast hbase.ne'
  rw [scaled]
  split
  · obtain ⟨n, rfl⟩ := Int.eq_ofNat_of_zero_le ‹0 ≤ exponent›
    simp [div_div]
  · obtain ⟨n, hn⟩ := Int.eq_ofNat_of_zero_le (show 0 ≤ -exponent by omega)
    obtain rfl : exponent = -n := by omega
    simp [zpow_neg, div_eq_mul_inv, mul_right_comm]

/-! ### The exponent of a fraction -/

/-- The exponent at which a fraction has 53 binary digits before the point, or fewer at the least
exponent. -/
structure IsExponent (x : ℚ) (e : ℤ) : Prop where
  le : minExponent ≤ e
  lt : x < 2 ^ (e + 53)
  normal : e = minExponent ∨ 2 ^ (e + 52) ≤ x

theorem IsExponent.le_of_isExponent {x : ℚ} {e f : ℤ} (he : IsExponent x e) (hf : IsExponent x f) :
    f ≤ e := by
  rcases hf.normal with hmin | hnormal
  · rw [hmin]
    exact he.le
  · have hlt : (2 : ℚ) ^ (f + 52) < 2 ^ (e + 53) := hnormal.trans_lt he.lt
    have := (zpow_lt_zpow_iff_right₀ (by norm_num)).mp hlt
    omega

theorem IsExponent.unique {x : ℚ} {e f : ℤ} (he : IsExponent x e) (hf : IsExponent x f) : e = f :=
  Int.le_antisymm (hf.le_of_isExponent he) (he.le_of_isExponent hf)

/-- The exponents of numerator and denominator tell that of the fraction up to one. -/
theorem ratio_bounds {num den : ℕ} (hnum : 0 < num) (hden : 0 < den) :
    (2 : ℚ) ^ ((num.log2 : ℤ) - den.log2 - 1) < num / den ∧
      (num / den : ℚ) < 2 ^ ((num.log2 : ℤ) - den.log2 + 1) := by
  have hpos : (0 : ℚ) < den := by exact_mod_cast hden
  have hlow : (2 : ℚ) ^ (num.log2 : ℤ) ≤ num := by
    exact_mod_cast Nat.log2_self_le hnum.ne'
  have hhigh : (num : ℚ) < 2 ^ ((num.log2 : ℤ) + 1) := by
    exact_mod_cast Nat.lt_log2_self
  have hlowDen : (2 : ℚ) ^ (den.log2 : ℤ) ≤ den := by
    exact_mod_cast Nat.log2_self_le hden.ne'
  have hhighDen : (den : ℚ) < 2 ^ ((den.log2 : ℤ) + 1) := by
    exact_mod_cast Nat.lt_log2_self
  constructor
  · rw [lt_div_iff₀ hpos]
    calc (2 : ℚ) ^ ((num.log2 : ℤ) - den.log2 - 1) * den
        < 2 ^ ((num.log2 : ℤ) - den.log2 - 1) * 2 ^ ((den.log2 : ℤ) + 1) := by gcongr
      _ = 2 ^ (num.log2 : ℤ) := by rw [← zpow_add₀ (by norm_num)]; congr 1; ring
      _ ≤ num := hlow
  · rw [div_lt_iff₀ hpos]
    calc (num : ℚ) < 2 ^ ((num.log2 : ℤ) + 1) := hhigh
      _ = 2 ^ ((num.log2 : ℤ) - den.log2 + 1) * 2 ^ (den.log2 : ℤ) := by
          rw [← zpow_add₀ (by norm_num)]; congr 1; ring
      _ ≤ 2 ^ ((num.log2 : ℤ) - den.log2 + 1) * den := by gcongr

theorem exists_ofRatio_eq (negative : Bool) {num den : ℕ} (hnum : 0 < num) (hden : 0 < den) :
    ∃ e, IsExponent (num / den) e ∧
      ofRatio negative num den = ofMantissa negative (nearest (num / den / 2 ^ e)) e := by
  obtain ⟨hlow, hhigh⟩ := ratio_bounds hnum hden
  set x : ℚ := num / den with hx
  set guess : ℤ := max ((num.log2 : ℤ) - den.log2 - 53) minExponent with hguess
  have hscaled : 0x20000000000000 ≤ (scaled 2 guess num den).1 / (scaled 2 guess num den).2 ↔
      (2 : ℚ) ^ (guess + 53) ≤ x := by
    have hpos : (0 : ℚ) < 2 ^ guess := by positivity
    rw [← Nat.floor_div_eq_div (K := ℚ), scaled_div two_pos, ← hx, Nat.le_floor_iff (by positivity),
      zpow_add₀ two_ne_zero, mul_comm]
    push_cast
    rw [le_div_iff₀ hpos]
  -- the guess from the lengths of the two numbers is the exponent or one below it
  have hmin : guess = minExponent ∨ 2 ^ (guess + 52) < x := by
    rcases max_choice ((num.log2 : ℤ) - den.log2 - 53) minExponent with h | h
    · right
      rw [hguess, h]
      exact (zpow_le_zpow_right₀ (by norm_num) (by omega)).trans_lt hlow
    · exact .inl h
  have hbelow : x < 2 ^ (guess + 54) :=
    hhigh.trans_le (zpow_le_zpow_right₀ (by norm_num) (by omega))
  refine ⟨if 0x20000000000000 ≤ (scaled 2 guess num den).1 / (scaled 2 guess num den).2 then
    guess + 1 else guess, ?_, ?_⟩
  · have hle : minExponent ≤ guess := le_max_right _ _
    split
    · have hge := hscaled.mp ‹_›
      refine ⟨by omega, ?_, .inr ?_⟩
      · rwa [show guess + 1 + 53 = guess + 54 by ring]
      · rwa [show guess + 1 + 52 = guess + 53 by ring]
    · have hlt := not_le.mp fun hge => ‹¬_› (hscaled.mpr hge)
      exact ⟨hle, hlt, hmin.imp_right le_of_lt⟩
  · simp only [ofRatio, ← hguess]
    rw [rounded_eq_nearest _ (den_scaled_pos (by norm_num) _ _ hden), scaled_div (by norm_num)]
    rfl

/-! ### The double closest to a fraction -/

/-- The double closest to a fraction that is not negative, with a sign. -/
def ofRat (negative : Bool) (x : ℚ) : Double :=
  if x = 0 then zero negative else ofRatio negative x.num.natAbs x.den

theorem exists_ofRat_eq (negative : Bool) {x : ℚ} (hx : 0 < x) :
    ∃ e, IsExponent x e ∧ ofRat negative x = ofMantissa negative (nearest (x / 2 ^ e)) e := by
  have hnum : 0 < x.num.natAbs := Int.natAbs_pos.mpr (Rat.num_pos.mpr hx).ne'
  have hval : ((x.num.natAbs : ℕ) : ℚ) / x.den = x := by
    have hnatAbs : (x.num.natAbs : ℤ) = x.num := Int.natAbs_of_nonneg (Rat.num_pos.mpr hx).le
    have hcast : ((x.num.natAbs : ℕ) : ℚ) = x.num := by
      rw [← Int.cast_natCast, hnatAbs]
    rw [hcast, Rat.num_div_den]
  obtain ⟨e, he, hof⟩ := exists_ofRatio_eq negative hnum x.den_pos
  rw [hval] at he hof
  exact ⟨e, he, by rw [ofRat, if_neg hx.ne', hof]⟩

theorem IsExponent.ofRat_eq {x : ℚ} {e : ℤ} (he : IsExponent x e) (negative : Bool) (hx : 0 < x) :
    ofRat negative x = ofMantissa negative (nearest (x / 2 ^ e)) e := by
  obtain ⟨f, hf, hof⟩ := exists_ofRat_eq negative hx
  rwa [he.unique hf]

/-- A fraction may be written with any numerator and denominator. -/
theorem ofRatio_eq_ofRat (negative : Bool) {num den : ℕ} (hnum : 0 < num) (hden : 0 < den) :
    ofRatio negative num den = ofRat negative (num / den) := by
  have hpos : (0 : ℚ) < num / den := by positivity
  obtain ⟨e, he, hof⟩ := exists_ofRatio_eq negative hnum hden
  rw [hof, he.ofRat_eq negative hpos]

theorem ofMantissa_of_lt {negative : Bool} {mantissa : ℕ} {e : ℤ} (h : maxExponent < e) :
    ofMantissa negative mantissa e = infinite negative := by
  by_cases hmantissa : mantissa = 0x20000000000000
  · simp only [ofMantissa, if_pos hmantissa]
    rw [if_pos (by omega)]
  · simp only [ofMantissa, if_neg hmantissa]
    rw [if_pos h]

theorem ofRat_of_large (negative : Bool) {x : ℚ} (hx : 2 ^ (1024 : ℤ) ≤ x) :
    ofRat negative x = infinite negative := by
  have hpos : 0 < x := lt_of_lt_of_le (by positivity) hx
  obtain ⟨e, he, hof⟩ := exists_ofRat_eq negative hpos
  have hlt : (2 : ℚ) ^ (1024 : ℤ) < 2 ^ (e + 53) := hx.trans_lt he.lt
  have := (zpow_lt_zpow_iff_right₀ (by norm_num)).mp hlt
  rw [hof]
  exact ofMantissa_of_lt (by rw [maxExponent]; omega)

theorem ofRat_of_small (negative : Bool) {x : ℚ} (hpos : 0 < x) (hx : x < 2 ^ (-1075 : ℤ)) :
    ofRat negative x = zero negative := by
  have he : IsExponent x minExponent := by
    refine ⟨le_refl _, hx.trans_le ?_, .inl rfl⟩
    exact zpow_le_zpow_right₀ (by norm_num) (by decide)
  have hhalf : x / 2 ^ minExponent < 1 / 2 := by
    rw [div_lt_iff₀ (by positivity)]
    refine hx.trans_eq ?_
    rw [minExponent, show (-1075 : ℤ) = -1 + -1074 by norm_num, zpow_add₀ (by norm_num)]
    norm_num
  rw [he.ofRat_eq negative hpos, nearest_of_lt_half hhalf]
  rfl

/-- Whether a number is one in double precision. -/
def IsCanonical : Double → Prop
  | finite _ mantissa exponent =>
    mantissa < 2 ^ 53 ∧ minExponent ≤ exponent ∧ exponent ≤ maxExponent ∧
      (exponent = minExponent ∨ 2 ^ 52 ≤ mantissa)
  | _ => True

theorem isCanonical_ofMantissa {negative : Bool} {mantissa : ℕ} {e : ℤ} (hle : mantissa ≤ 2 ^ 53)
    (hmin : minExponent ≤ e) (hnormal : e = minExponent ∨ 2 ^ 52 ≤ mantissa) :
    (ofMantissa negative mantissa e).IsCanonical := by
  by_cases hmantissa : mantissa = 0x20000000000000
  · simp only [ofMantissa, if_pos hmantissa]
    split
    · trivial
    · exact ⟨by norm_num, by omega, by omega, .inr (by norm_num)⟩
  · simp only [ofMantissa, if_neg hmantissa]
    split
    · trivial
    · exact ⟨by omega, hmin, by omega, hnormal⟩

theorem isCanonical_ofRat (negative : Bool) {x : ℚ} (hx : 0 ≤ x) :
    (ofRat negative x).IsCanonical := by
  rcases hx.eq_or_lt with rfl | hpos
  · exact ⟨by norm_num, by decide, by decide, .inl rfl⟩
  obtain ⟨e, he, hof⟩ := exists_ofRat_eq negative hpos
  have hpow : (0 : ℚ) < 2 ^ e := by positivity
  rw [hof]
  refine isCanonical_ofMantissa (nearest_le (by positivity) ?_) he.le
    (he.normal.imp_right fun hnormal => le_nearest ?_)
  · rw [div_lt_iff₀ hpow]
    refine he.lt.trans_eq ?_
    rw [zpow_add₀ (by norm_num), mul_comm]
    norm_num
  · rw [le_div_iff₀ hpow]
    refine Eq.trans_le ?_ hnormal
    rw [zpow_add₀ (by norm_num), mul_comm]
    norm_num

/-- A double is the one closest to its own value. -/
theorem ofRat_of_isCanonical {negative : Bool} {mantissa : ℕ} {e : ℤ}
    (h : (finite negative mantissa e).IsCanonical) (hne : mantissa ≠ 0) :
    ofRat negative (mantissa * 2 ^ e) = finite negative mantissa e := by
  obtain ⟨hlt, hmin, hmax, hnormal⟩ := h
  have hpow : (0 : ℚ) < 2 ^ e := by positivity
  have hcast : (mantissa : ℚ) < 2 ^ 53 := by exact_mod_cast hlt
  have he : IsExponent (mantissa * 2 ^ e) e := by
    refine ⟨hmin, ?_, hnormal.imp_right fun hle => ?_⟩
    · rw [zpow_add₀ (by norm_num), mul_comm]
      exact mul_lt_mul_of_pos_left (by exact_mod_cast hlt) hpow
    · rw [zpow_add₀ (by norm_num), mul_comm]
      exact mul_le_mul_of_nonneg_right (by exact_mod_cast hle) hpow.le
  have hpos : (0 : ℚ) < mantissa * 2 ^ e := by
    have : 0 < mantissa := Nat.pos_of_ne_zero hne
    positivity
  rw [he.ofRat_eq negative hpos, mul_div_cancel_right₀ _ hpow.ne', nearest_natCast, ofMantissa,
    if_neg (by norm_num at hlt; omega)]
  simp only [if_neg (not_lt.mpr hmax)]

/-- The sign goes along with the rounding. -/
theorem ofRat_finite {negative : Bool} {x : ℚ} (hx : 0 < x) {mantissa : ℕ} {e : ℤ}
    (h : ofRat false x = finite false mantissa e) :
    ofRat negative x = finite negative mantissa e := by
  obtain ⟨f, hf, hof⟩ := exists_ofRat_eq false hx
  rw [hof, ofMantissa] at h
  rw [hf.ofRat_eq negative hx, ofMantissa]
  grind

/-! ### Decimals -/

theorem ten_pow_le_two_pow (bits : ℕ) : 10 ^ (bits * 3 / 10) ≤ 2 ^ bits := by
  rw [← Nat.pow_le_pow_iff_left (n := 10) (by norm_num), ← pow_mul, ← pow_mul]
  calc 10 ^ (bits * 3 / 10 * 10) ≤ 10 ^ (3 * bits) := Nat.pow_le_pow_right (by norm_num) (by omega)
    _ = 1000 ^ bits := by rw [pow_mul]; norm_num
    _ ≤ 1024 ^ bits := Nat.pow_le_pow_left (by norm_num) bits
    _ = 2 ^ (bits * 10) := by rw [mul_comm, pow_mul]; norm_num

theorem two_pow_le_ten_pow (bits : ℕ) : 2 ^ bits ≤ 10 ^ (bits * 31 / 100 + 1) := by
  rw [← Nat.pow_le_pow_iff_left (n := 100) (by norm_num), ← pow_mul, ← pow_mul]
  calc 2 ^ (bits * 100) = (2 ^ 100) ^ bits := by rw [mul_comm, pow_mul]
    _ ≤ (10 ^ 31) ^ bits := Nat.pow_le_pow_left (by norm_num) bits
    _ = 10 ^ (31 * bits) := by rw [pow_mul]
    _ ≤ 10 ^ ((bits * 31 / 100 + 1) * 100) := Nat.pow_le_pow_right (by norm_num) (by omega)

/-- A decimal is read as the double closest to its value. -/
theorem ofDecimal_eq_ofRat (negative : Bool) (digits : ℕ) (power : ℤ) :
    ofDecimal negative digits power = ofRat negative (digits * 10 ^ power) := by
  rcases Nat.eq_zero_or_pos digits with rfl | hdigits
  · simp [ofDecimal, ofRat]
  have hbits : 2 ^ digits.log2 ≤ digits := Nat.log2_self_le hdigits.ne'
  have hpow : (0 : ℚ) < 10 ^ power := by positivity
  have hpos : (0 : ℚ) < digits * 10 ^ power := by
    have : (0 : ℚ) < digits := by exact_mod_cast hdigits
    positivity
  simp only [ofDecimal, if_neg hdigits.ne']
  split
  · -- more than three hundred digits before the point
    rw [ofRat_of_large]
    have hdec : (10 : ℚ) ^ ((digits.log2 * 3 / 10 : ℕ) : ℤ) ≤ digits := by
      exact_mod_cast (ten_pow_le_two_pow digits.log2).trans hbits
    calc (2 : ℚ) ^ (1024 : ℤ) ≤ 10 ^ (311 : ℤ) := by
          exact_mod_cast (by decide +kernel : (2 : ℕ) ^ 1024 ≤ 10 ^ 311)
      _ ≤ 10 ^ (((digits.log2 * 3 / 10 : ℕ) : ℤ) + power) :=
          zpow_le_zpow_right₀ (by norm_num) (by omega)
      _ = 10 ^ ((digits.log2 * 3 / 10 : ℕ) : ℤ) * 10 ^ power := zpow_add₀ (by norm_num) _ _
      _ ≤ digits * 10 ^ power := by gcongr
  · split
    · -- more than three hundred zeros after the point
      rw [ofRat_of_small negative hpos]
      have hlt : digits < 2 ^ (digits.log2 + 1) := Nat.lt_log2_self
      have hdec : (digits : ℚ) < 10 ^ (((digits.log2 + 1) * 31 / 100 + 1 : ℕ) : ℤ) := by
        exact_mod_cast hlt.trans_le (two_pow_le_ten_pow (digits.log2 + 1))
      calc (digits : ℚ) * 10 ^ power
          < 10 ^ (((digits.log2 + 1) * 31 / 100 + 1 : ℕ) : ℤ) * 10 ^ power := by gcongr
        _ = 10 ^ ((((digits.log2 + 1) * 31 / 100 + 1 : ℕ) : ℤ) + power) :=
            (zpow_add₀ (by norm_num) _ _).symm
        _ ≤ 10 ^ (-331 : ℤ) := zpow_le_zpow_right₀ (by norm_num) (by omega)
        _ ≤ 2 ^ (-1075 : ℤ) := by
            rw [zpow_neg, zpow_neg, inv_le_inv₀ (by positivity) (by positivity)]
            exact_mod_cast (by decide +kernel : (2 : ℕ) ^ 1075 ≤ 10 ^ 331)
    · have hden : 0 < (scaled 10 (-power) digits 1).2 := den_scaled_pos (by norm_num) _ _ one_pos
      have hval := scaled_div (show 0 < 10 by norm_num) (-power) digits 1
      have hnum : 0 < (scaled 10 (-power) digits 1).1 := by
        rw [scaled]
        split
        · exact hdigits
        · exact Nat.mul_pos hdigits (Nat.pow_pos (by norm_num))
      rw [ofRatio_eq_ofRat negative hnum hden, hval]
      simp [zpow_neg, div_eq_mul_inv]

theorem isCanonical_ofDecimal (negative : Bool) (digits : ℕ) (power : ℤ) :
    (ofDecimal negative digits power).IsCanonical := by
  rw [ofDecimal_eq_ofRat]
  exact isCanonical_ofRat negative (by positivity)

end StepGlue.Double
