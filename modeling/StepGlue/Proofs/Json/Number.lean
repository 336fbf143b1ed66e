import StepGlue.Json.Printer
import StepGlue.Json.Reader
import StepGlue.Proofs.Number.Shortest

/-!
# Numbers in JSON text

A written number is read back, whatever follows it that cannot belong to a number. Integers need few
enough digits, and real numbers are written as one of four layouts of a decimal.
-/

namespace StepGlue.Json

open Nat (ofDigitChars toDigits)
open Reader

theorem forall_mem_head?_cons {p : Char → Prop} {c : Char} {text : List Char} :
    (∀ d ∈ (c :: text).head?, p d) ↔ p c := by
  simp

/-- Whether a number ends where this text starts. -/
def EndsNumber (text : List Char) : Prop :=
  ∀ c ∈ text.head?, c.isDigit = false ∧ c ≠ '.' ∧ c ≠ 'e' ∧ c ≠ 'E'

theorem endsNumber_nil : EndsNumber [] := nofun

theorem endsNumber_cons {c : Char} {text : List Char}
    (h : c.isDigit = false ∧ c ≠ '.' ∧ c ≠ 'e' ∧ c ≠ 'E') : EndsNumber (c :: text) :=
  forall_mem_head?_cons.mpr h

theorem EndsNumber.not_isDigit {text : List Char} (h : EndsNumber text) :
    ∀ c ∈ text.head?, ¬c.isDigit := by
  intro c hc
  rw [(h c hc).1]
  exact Bool.false_ne_true

theorem digitsValue_eq (digits : List Char) : digitsValue digits = ofDigitChars 10 digits 0 := by
  rw [digitsValue, Nat.ofDigitChars_eq_foldl]
  simp only [Nat.mul_comm]
  rfl

section Digits

variable {digits text : List Char}

theorem takeWhile_digits_append (hdigits : ∀ c ∈ digits, c.isDigit)
    (htext : ∀ c ∈ text.head?, ¬c.isDigit) :
    (digits ++ text).takeWhile Char.isDigit = digits := by
  rw [List.takeWhile_append_of_pos hdigits]
  cases text with
  | nil => simp
  | cons c text => simp [htext c rfl]

theorem dropWhile_digits_append (hdigits : ∀ c ∈ digits, c.isDigit)
    (htext : ∀ c ∈ text.head?, ¬c.isDigit) :
    (digits ++ text).dropWhile Char.isDigit = text := by
  rw [List.dropWhile_append_of_pos hdigits]
  cases text with
  | nil => rfl
  | cons c text => simp [htext c rfl]

theorem any_isDigit_head? (hdigits : ∀ c ∈ digits, c.isDigit) (hne : digits ≠ [])
    (text : List Char) : (digits ++ text).head?.any Char.isDigit = true := by
  cases digits with
  | nil => exact absurd rfl hne
  | cons c digits => exact hdigits c List.mem_cons_self

theorem fraction_point_append (hdigits : ∀ c ∈ digits, c.isDigit) (hne : digits ≠ [])
    (htext : ∀ c ∈ text.head?, ¬c.isDigit) :
    fraction ('.' :: (digits ++ text)) = (digits, text) := by
  rw [fraction, if_pos (any_isDigit_head? hdigits hne text), takeWhile_digits_append hdigits htext,
    dropWhile_digits_append hdigits htext]

theorem fraction_of_head? (htext : ∀ c ∈ text.head?, c ≠ '.') : fraction text = ([], text) := by
  rw [fraction.eq_def]
  split
  · exact absurd rfl (htext '.' rfl)
  · rfl

theorem exponent_append (negative : Bool) (hdigits : ∀ c ∈ digits, c.isDigit) (hne : digits ≠ [])
    (htext : ∀ c ∈ text.head?, ¬c.isDigit) :
    exponent ('e' :: (if negative then '-' else '+') :: (digits ++ text)) =
      (some (if negative then -(ofDigitChars 10 digits 0 : ℤ) else ofDigitChars 10 digits 0),
        text) := by
  have hany := any_isDigit_head? hdigits hne text
  cases negative <;>
    simp [exponent, hany, takeWhile_digits_append hdigits htext,
      dropWhile_digits_append hdigits htext, digitsValue_eq, -List.head?_append]

theorem EndsNumber.exponent_eq (htext : EndsNumber text) : exponent text = (none, text) := by
  cases text with
  | nil => rfl
  | cons c text =>
    obtain ⟨-, -, he, hE⟩ := htext c rfl
    simp [exponent, he, hE]

end Digits

/-- The digits before the point: without a zero in front, unless that is all. -/
structure IsWhole (digits : List Char) : Prop where
  isDigit : ∀ c ∈ digits, c.isDigit
  ne_nil : digits ≠ []
  zero_alone : digits.head? = some '0' → digits = ['0']

theorem isWhole_toDigits (n : ℕ) : IsWhole (toDigits 10 n) := by
  refine ⟨fun c hc => Nat.isDigit_of_mem_toDigits (by norm_num) (le_refl _) hc,
    Nat.toDigits_ne_nil, fun hzero => ?_⟩
  by_cases hn : n = 0
  · rw [hn]
    rfl
  · exact absurd hzero (head?_toDigits_ne_zero (Nat.pos_of_ne_zero hn))

variable {whole text : List Char}

theorem IsWhole.head?_append (hwhole : IsWhole whole) : (whole ++ text).head? = whole.head? :=
  List.head?_append_of_ne_nil _ hwhole.ne_nil

/-- The digits that are taken off the front. -/
theorem IsWhole.taken (hwhole : IsWhole whole) (htext : ∀ c ∈ text.head?, ¬c.isDigit) :
    (if (whole ++ text).head? = some '0' then ['0'] else (whole ++ text).takeWhile Char.isDigit) =
      whole := by
  rw [hwhole.head?_append]
  split
  · exact (hwhole.zero_alone ‹_›).symm
  · exact takeWhile_digits_append hwhole.isDigit htext

theorem IsWhole.unsigned_int (hwhole : IsWhole whole) (htext : EndsNumber text) (negative : Bool)
    (hshort : whole.length ≤ maxDigits) :
    unsigned negative (whole ++ text) = .ok
      (.int (if negative then -(ofDigitChars 10 whole 0 : ℤ) else ofDigitChars 10 whole 0),
        text) := by
  have hfraction : fraction text = ([], text) := fraction_of_head? fun c hc => (htext c hc).2.1
  simp only [unsigned, hwhole.taken htext.not_isDigit, List.drop_left, hfraction, htext.exponent_eq]
  simp [hwhole.ne_nil, not_lt.mpr hshort, digitsValue_eq]

theorem real_eq (negative : Bool) (whole part : List Char) (power : ℤ) :
    Reader.real negative whole part power =
      Double.ofRat negative (ofDigitChars 10 (whole ++ part) 0 * 10 ^ (power - part.length)) := by
  rw [Reader.real, Double.ofDecimal_eq_ofRat, digitsValue_eq]

/-- A number with a point and no exponent. -/
theorem IsWhole.unsigned_point (hwhole : IsWhole whole) {part : List Char}
    (hpart : ∀ c ∈ part, c.isDigit) (hne : part ≠ []) (htext : EndsNumber text) (negative : Bool) :
    unsigned negative (whole ++ '.' :: (part ++ text)) = .ok (.real (Double.ofRat negative
      (ofDigitChars 10 (whole ++ part) 0 * 10 ^ (-part.length : ℤ))), text) := by
  have hpoint : ∀ c ∈ ('.' :: (part ++ text)).head?, ¬c.isDigit :=
    forall_mem_head?_cons.mpr (by decide)
  simp only [unsigned, hwhole.taken hpoint, List.drop_left,
    fraction_point_append hpart hne htext.not_isDigit, htext.exponent_eq]
  simp [hwhole.ne_nil, hne, real_eq]

/-- A number with an exponent, and with a point if there are digits after it. -/
theorem IsWhole.unsigned_exponent (hwhole : IsWhole whole) {part tail : List Char} {power : ℤ}
    (hpart : ∀ c ∈ part, c.isDigit) (hpower : exponent tail = (some power, text))
    (htail : ∀ c ∈ tail.head?, ¬c.isDigit ∧ c ≠ '.') (negative : Bool) :
    unsigned negative (whole ++ ((if part.isEmpty then [] else '.' :: part) ++ tail)) =
      .ok (.real (Double.ofRat negative
        (ofDigitChars 10 (whole ++ part) 0 * 10 ^ (power - part.length))), text) := by
  rw [← real_eq]
  cases part with
  | nil =>
    have htaken := hwhole.taken fun c hc => (htail c hc).1
    have hfraction := fraction_of_head? fun c hc => (htail c hc).2
    simp only [List.isEmpty_nil, if_true, List.nil_append, unsigned, htaken, List.drop_left,
      hfraction, hpower]
    simp [hwhole.ne_nil]
  | cons c part =>
    have hpoint : ∀ d ∈ ('.' :: (c :: part ++ tail)).head?, ¬d.isDigit := by
      rw [forall_mem_head?_cons]
      decide
    have htaken := hwhole.taken hpoint
    have hfraction := fraction_point_append hpart (List.cons_ne_nil _ _) fun c hc => (htail c hc).1
    rw [List.isEmpty_cons, if_neg Bool.false_ne_true, List.cons_append]
    simp only [unsigned, htaken, List.drop_left, hfraction, hpower]
    simp [hwhole.ne_nil]

/-! ### Integers -/

theorem toList_toString_int (n : ℤ) :
    (toString n).toList = (if n < 0 then ['-'] else []) ++ toDigits 10 n.natAbs := by
  rw [Int.toString_eq_repr, Int.repr_eq_if]
  by_cases hn : 0 ≤ n
  · rw [if_pos hn, if_neg (not_lt.mpr hn), Nat.toList_repr, List.nil_append,
      show n.toNat = n.natAbs by omega]
  · rw [if_neg hn, if_pos (not_le.mp hn), String.toList_append, Nat.toList_repr,
      show (-n).toNat = n.natAbs by omega]
    rfl

theorem scalar_of_isDigit {c : Char} {text : List Char} (hc : c.isDigit) :
    scalar (c :: text) = unsigned false (c :: text) := by
  rw [scalar.eq_def]
  split <;> simp_all

theorem scalar_minus {c : Char} {text : List Char} (hc : c.isDigit) :
    scalar ('-' :: c :: text) = unsigned true (c :: text) := by
  rw [scalar.eq_def]
  split <;> simp_all

/-- A number with a sign is one without, read with that sign. -/
theorem IsWhole.scalar_append (hwhole : IsWhole whole) (negative : Bool) (text : List Char) :
    scalar ((if negative then ['-'] else []) ++ (whole ++ text)) =
      unsigned negative (whole ++ text) := by
  obtain ⟨c, digits, rfl⟩ := List.exists_cons_of_ne_nil hwhole.ne_nil
  have hc := hwhole.isDigit c List.mem_cons_self
  cases negative
  · exact scalar_of_isDigit hc
  · exact scalar_minus hc

theorem scalar_int {n : ℤ} (hshort : (toDigits 10 n.natAbs).length ≤ maxDigits)
    (htext : EndsNumber text) : scalar ((toString n).toList ++ text) = .ok (.int n, text) := by
  have hwhole := isWhole_toDigits n.natAbs
  have hscalar := hwhole.scalar_append (decide (n < 0)) text
  simp only [decide_eq_true_eq] at hscalar
  rw [toList_toString_int, List.append_assoc, hscalar, hwhole.unsigned_int htext _ hshort,
    Nat.ofDigitChars_ten_toDigits]
  by_cases hn : n < 0
  · rw [if_pos (by simpa using hn), show -(n.natAbs : ℤ) = n by omega]
  · rw [if_neg (by simpa using hn), show (n.natAbs : ℤ) = n by omega]

/-! ### Real numbers -/

section Decimals

variable {d : Decimal} (hd : d.IsNormal) (htext : EndsNumber text) (negative : Bool)
include hd

/-- The digits up to some place, and zeros after them, can stand before the point. -/
theorem isWhole_of_isPrefix {digits : List Char} (hfront : digits <+: d.digits) (hne : digits ≠ [])
    (k : ℕ) : IsWhole (digits ++ List.replicate k '0') := by
  obtain ⟨others, hothers⟩ := hfront
  have hhead : (digits ++ List.replicate k '0').head? = d.digits.head? := by
    rw [← hothers, List.head?_append_of_ne_nil _ hne, List.head?_append_of_ne_nil _ hne]
  refine ⟨fun c hc => ?_, List.append_ne_nil_of_left_ne_nil hne _, fun hzero => ?_⟩
  · rcases List.mem_append.mp hc with hmem | hmem
    · exact hd.isDigit c (hothers ▸ List.mem_append_left _ hmem)
    · rw [List.eq_of_mem_replicate hmem]
      rfl
  · exact absurd (hhead.symm.trans hzero) hd.head?_ne

include htext

theorem unsigned_fraction (hpoint : d.point ≤ 0) :
    unsigned negative ('0' :: '.' :: (List.replicate (-d.point).toNat '0' ++ d.digits) ++ text) =
      .ok (.real (Double.ofRat negative d.value), text) := by
  have hzero : IsWhole ['0'] := isWhole_toDigits 0
  have hpart : ∀ c ∈ List.replicate (-d.point).toNat '0' ++ d.digits, c.isDigit := by
    intro c hc
    rcases List.mem_append.mp hc with hmem | hmem
    · rw [List.eq_of_mem_replicate hmem]
      rfl
    · exact hd.isDigit c hmem
  have hread := hzero.unsigned_point hpart (by simp [hd.ne_nil]) htext negative
  have hdigits : ofDigitChars 10 (['0'] ++ (List.replicate (-d.point).toNat '0' ++ d.digits)) 0 =
      ofDigitChars 10 d.digits 0 := by
    rw [Nat.ofDigitChars_append, Nat.ofDigitChars_append, Nat.ofDigitChars_replicate_zero]
    rfl
  have hlength : (-((List.replicate (-d.point).toNat '0' ++ d.digits).length : ℤ)) =
      d.point - d.digits.length := by
    rw [List.length_append, List.length_replicate]
    omega
  rw [hdigits, hlength] at hread
  exact hread

theorem unsigned_whole (hpoint : d.digits.length ≤ d.point) :
    unsigned negative (d.digits ++ List.replicate (d.point - d.digits.length).toNat '0' ++
        ['.', '0'] ++ text) = .ok (.real (Double.ofRat negative d.value), text) := by
  have hwhole := isWhole_of_isPrefix hd (List.prefix_refl _) hd.ne_nil
    (d.point - d.digits.length).toNat
  have hzero : ∀ c ∈ ['0'], c.isDigit := List.forall_mem_singleton.mpr rfl
  have hread := hwhole.unsigned_point hzero (by decide) htext negative
  have hdigits :
      ofDigitChars 10
          (d.digits ++ List.replicate (d.point - d.digits.length).toNat '0' ++ ['0']) 0 =
        10 ^ ((d.point - d.digits.length).toNat + 1) * ofDigitChars 10 d.digits 0 := by
    rw [List.append_assoc, ← List.replicate_succ', Decimal.ofDigitChars_append_zeros]
  have hpower : d.point - d.digits.length =
      (((d.point - d.digits.length).toNat + 1 : ℕ) : ℤ) + (-1 : ℤ) := by
    omega
  have hvalue : ((ofDigitChars 10 (d.digits ++
      List.replicate (d.point - d.digits.length).toNat '0' ++ ['0']) 0 : ℕ) : ℚ) *
        10 ^ (-(['0'].length : ℤ)) = d.value := by
    rw [hdigits, Decimal.value, hpower, zpow_add₀ (by norm_num), zpow_natCast,
      List.length_singleton, ← hpower]
    push_cast
    ring
  rw [hvalue] at hread
  rw [List.append_assoc]
  exact hread

theorem unsigned_split (hpos : 0 < d.point) (hpoint : d.point < d.digits.length) :
    unsigned negative (d.digits.take d.point.toNat ++ '.' :: d.digits.drop d.point.toNat ++ text) =
      .ok (.real (Double.ofRat negative d.value), text) := by
  have hne : d.digits.take d.point.toNat ≠ [] := by
    rw [ne_eq, List.take_eq_nil_iff, not_or]
    exact ⟨by omega, hd.ne_nil⟩
  have hwhole := isWhole_of_isPrefix hd (List.take_prefix _ _) hne 0
  have hpart : ∀ c ∈ d.digits.drop d.point.toNat, c.isDigit :=
    fun c hc => hd.isDigit c (List.mem_of_mem_drop hc)
  have hpartNe : d.digits.drop d.point.toNat ≠ [] := by
    rw [ne_eq, List.drop_eq_nil_iff]
    omega
  have hread := hwhole.unsigned_point hpart hpartNe htext negative
  have hlength : (-((d.digits.drop d.point.toNat).length : ℤ)) = d.point - d.digits.length := by
    rw [List.length_drop]
    omega
  rw [List.replicate_zero, List.append_nil, List.take_append_drop, hlength] at hread
  rw [List.append_assoc, List.cons_append]
  exact hread

theorem unsigned_scientific :
    unsigned negative (d.digits.take 1 ++
        (if 1 < (d.digits.length : ℤ) then '.' :: d.digits.drop 1 else []) ++
        'e' :: (if d.point < 1 then '-' else '+') ::
          List.replicate (2 - (toString (d.point - 1).natAbs).toList.length) '0' ++
        (toString (d.point - 1).natAbs).toList ++ text) =
      .ok (.real (Double.ofRat negative d.value), text) := by
  have hlength : 0 < d.digits.length := List.length_pos_of_ne_nil hd.ne_nil
  have hne : d.digits.take 1 ≠ [] := by
    simp [hd.ne_nil]
  have hwhole := isWhole_of_isPrefix hd (List.take_prefix 1 d.digits) hne 0
  have hpart : ∀ c ∈ d.digits.drop 1, c.isDigit :=
    fun c hc => hd.isDigit c (List.mem_of_mem_drop hc)
  generalize hzeros : 2 - (toString (d.point - 1).natAbs).toList.length = zeros
  have hdigits : ∀ c ∈ List.replicate zeros '0' ++ toDigits 10 (d.point - 1).natAbs, c.isDigit := by
    intro c hc
    rcases List.mem_append.mp hc with hmem | hmem
    · rw [List.eq_of_mem_replicate hmem]
      rfl
    · exact (isWhole_toDigits _).isDigit c hmem
  have hpower := exponent_append (decide (d.point < 1)) hdigits
    (by simp [Nat.toDigits_ne_nil]) htext.not_isDigit
  have hvalue : ofDigitChars 10 (List.replicate zeros '0' ++ toDigits 10 (d.point - 1).natAbs) 0 =
      (d.point - 1).natAbs := by
    rw [Nat.ofDigitChars_append, Nat.ofDigitChars_replicate_zero, Nat.mul_zero,
      Nat.ofDigitChars_ten_toDigits]
  have hsigned : (if d.point < 1 then -((d.point - 1).natAbs : ℤ) else (d.point - 1).natAbs) =
      d.point - 1 := by
    split <;> omega
  simp only [decide_eq_true_eq, hvalue, hsigned] at hpower
  have hread := hwhole.unsigned_exponent hpart hpower
    (forall_mem_head?_cons.mpr (by decide)) negative
  have htotal : d.point - 1 - ((d.digits.drop 1).length : ℤ) = d.point - d.digits.length := by
    rw [List.length_drop]
    omega
  have hempty : (if (d.digits.drop 1).isEmpty then [] else '.' :: d.digits.drop 1) =
      if 1 < (d.digits.length : ℤ) then '.' :: d.digits.drop 1 else [] := by
    by_cases hmany : 1 < (d.digits.length : ℤ)
    · rw [if_pos hmany, if_neg]
      simp only [List.isEmpty_iff, List.drop_eq_nil_iff]
      omega
    · rw [if_neg hmany, if_pos]
      simp only [List.isEmpty_iff, List.drop_eq_nil_iff]
      omega
  rw [List.replicate_zero, List.append_nil, List.take_append_drop, htotal, hempty] at hread
  have htoString : (toString (d.point - 1).natAbs).toList = toDigits 10 (d.point - 1).natAbs := by
    rw [Nat.toString_eq_ofList_toDigits, String.toList_ofList]
  rw [htoString, Decimal.value]
  simpa only [List.append_assoc, List.cons_append] using hread

/-- Whatever its layout, a decimal is read as the double closest to its value. -/
theorem unsigned_decimalText :
    unsigned negative (decimalText d ++ text) =
      .ok (.real (Double.ofRat negative d.value), text) := by
  rw [decimalText]
  dsimp only
  split
  · split
    · exact unsigned_fraction hd htext negative ‹_›
    · split
      · exact unsigned_whole hd htext negative ‹_›
      · exact unsigned_split hd htext negative (by omega) (by omega)
  · exact unsigned_scientific hd htext negative

end Decimals

/-- A written decimal starts with a digit. -/
theorem exists_decimalText_cons {d : Decimal} (hd : d.IsNormal) :
    ∃ c rest, decimalText d = c :: rest ∧ c.isDigit := by
  obtain ⟨c, digits, hdigits⟩ := List.exists_cons_of_ne_nil hd.ne_nil
  have hc := hd.isDigit c (hdigits ▸ List.mem_cons_self)
  rw [decimalText]
  dsimp only
  split
  · split
    · exact ⟨_, _, rfl, rfl⟩
    · rename_i hpoint
      split
      · exact ⟨c, _, by rw [hdigits]; rfl, hc⟩
      · obtain ⟨k, hk⟩ := Nat.exists_eq_succ_of_ne_zero (n := d.point.toNat) (by omega)
        exact ⟨c, _, by rw [hk, hdigits]; rfl, hc⟩
  · exact ⟨c, _, by rw [hdigits]; rfl, hc⟩

theorem toList_minus (negative : Bool) :
    (if negative then "-" else "").toList = if negative then ['-'] else [] := by
  cases negative <;> rfl

theorem scalar_real {x : Double} (hx : x.IsCanonical) (htext : EndsNumber text) :
    scalar ((numberText x).toList ++ text) = .ok (.real x, text) := by
  cases x with
  | notANumber => rfl
  | infinite negative => cases negative <;> rfl
  | finite negative mantissa exponent =>
    rw [numberText, realText, String.toList_append, toList_minus, List.append_assoc]
    by_cases hzero : mantissa = 0
    · obtain rfl : exponent = Double.minExponent := by
        obtain ⟨-, -, -, hmin | hnormal⟩ := hx
        · exact hmin
        · norm_num [hzero] at hnormal
      have hdigit : ∀ c ∈ ['0'], c.isDigit := List.forall_mem_singleton.mpr rfl
      have hread := (isWhole_toDigits 0).unsigned_point hdigit (by decide) htext negative
      have hrat : Double.ofRat negative (ofDigitChars 10 (toDigits 10 0 ++ ['0']) 0 *
          10 ^ (-(['0'].length : ℤ))) = .finite negative 0 Double.minExponent := by
        rw [show ofDigitChars 10 (toDigits 10 0 ++ ['0']) 0 = 0 by decide, Nat.cast_zero, zero_mul,
          Double.ofRat, if_pos rfl]
        rfl
      rw [hrat] at hread
      rw [if_pos hzero, hzero, ← hread]
      exact (isWhole_toDigits 0).scalar_append negative _
    · have hnormal := Decimal.isNormal_shortest hzero hx
      have hread := unsigned_decimalText hnormal htext negative
      rw [Decimal.ofRat_value_shortest hzero hx] at hread
      obtain ⟨c, rest, hcons, hc⟩ := exists_decimalText_cons hnormal
      rw [if_neg hzero, String.toList_ofList, ← hread, hcons]
      cases negative
      · exact scalar_of_isDigit hc
      · exact scalar_minus hc

end StepGlue.Json
