/-!
Numbers in double precision: whole multiples of powers of two with at most 53 binary digits, the two
infinities, and one value that is no number. A decimal is read as the closest of them.
-/

namespace StepGlue

inductive Double where
  /-- The number `mantissa * 2 ^ exponent`, or its negative. -/
  | finite (negative : Bool) (mantissa : Nat) (exponent : Int)
  | infinite (negative : Bool)
  | notANumber
deriving DecidableEq, Repr

namespace Double

/-- The exponent of the numbers closest to zero. -/
def minExponent : Int := -1074

def maxExponent : Int := 971

def zero (negative : Bool) : Double :=
  finite negative 0 minExponent

/-- The whole number closest to `num / den`, the even one of two. -/
def rounded (num den : Nat) : Nat :=
  let floor := num / den
  let rest := 2 * (num % den)
  if den < rest || rest == den && floor % 2 == 1 then floor + 1 else floor

def scaled (base : Nat) (exponent : Int) (num den : Nat) : Nat × Nat :=
  if 0 ≤ exponent then (num, den * Nat.pow base exponent.toNat)
  else (num * Nat.pow base (-exponent).toNat, den)

/-- A number whose mantissa may just have reached the next power of two. -/
def ofMantissa (negative : Bool) (mantissa : Nat) (exponent : Int) : Double :=
  let (mantissa, exponent) :=
    if mantissa = 0x20000000000000 then (0x10000000000000, exponent + 1) else (mantissa, exponent)
  if maxExponent < exponent then infinite negative else finite negative mantissa exponent

def ofRatio (negative : Bool) (num den : Nat) : Double :=
  let guess := max ((num.log2 : Int) - den.log2 - 53) minExponent
  let (n, d) := scaled 2 guess num den
  let exponent := if 0x20000000000000 ≤ n / d then guess + 1 else guess
  let (n, d) := scaled 2 exponent num den
  ofMantissa negative (rounded n d) exponent

/-- The number closest to `digits * 10 ^ power`; what is far out of range is not computed. -/
def ofDecimal (negative : Bool) (digits : Nat) (power : Int) : Double :=
  let bits : Int := digits.log2
  if digits = 0 then zero negative
  else if 310 < bits * 3 / 10 + power then infinite negative
  else if (bits + 1) * 31 / 100 + 1 + power < -330 then zero negative
  else
    let (num, den) := scaled 10 (-power) digits 1
    ofRatio negative num den

def isFinite : Double → Bool
  | finite _ _ _ => true
  | _ => false

def isZero : Double → Bool
  | finite _ mantissa _ => mantissa == 0
  | _ => false

def toInt? : Double → Option Int
  | finite negative mantissa exponent =>
    let (num, den) := scaled 2 (-exponent) mantissa 1
    if num % den = 0 then
      some (if negative then -((num / den : Nat) : Int) else (num / den : Nat))
    else none
  | _ => none

end Double

end StepGlue
