/-!
Surrogates, the halves of the characters beyond the first 65536.
-/

namespace StepGlue.Text.Surrogate

def isHigh (n : Nat) : Bool :=
  0xD800 ≤ n && n < 0xDC00

def isLow (n : Nat) : Bool :=
  0xDC00 ≤ n && n < 0xE000

def isSurrogate (n : Nat) : Bool :=
  isHigh n || isLow n

/-- The character that a high and a low surrogate make. -/
def join (high low : Nat) : Char :=
  Char.ofNat (0x10000 + (high - 0xD800) * 0x400 + (low - 0xDC00))

theorem isSurrogate_iff {n : Nat} : isSurrogate n ↔ 0xD800 ≤ n ∧ n < 0xE000 := by
  simp only [isSurrogate, isHigh, isLow, Bool.or_eq_true, Bool.and_eq_true, decide_eq_true_eq]
  omega

end StepGlue.Text.Surrogate
