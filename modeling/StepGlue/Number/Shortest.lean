import StepGlue.Number.Double

/-!
The fewest decimal digits that are read back as the same number. Of several such decimals with
equally many digits the one closest to the number is taken.
-/

namespace StepGlue

/-- The number `0.digits * 10 ^ point`. -/
structure Decimal where
  digits : List Char
  point : Int
deriving DecidableEq, Repr

namespace Decimal

def digitCount (n : Nat) : Nat :=
  (Nat.toDigits 10 n).length

/-- The decimal for `n * 10 ^ grid`, without zeros at its end. -/
def ofGrid (n : Nat) (grid : Int) : Decimal where
  digits := ((Nat.toDigits 10 n).reverse.dropWhile (· == '0')).reverse
  point := digitCount n + grid

/-- The least power of ten above `num / den`. -/
def magnitude (num den : Nat) : Int :=
  if den ≤ num then digitCount (num / den) else 1 - digitCount ((den + num - 1) / num - 1)

/-- The multiple of `10 ^ grid` next to `num / den` that is read back as `x`, if one is. -/
def onGrid? (x : Double) (num den : Nat) (grid : Int) : Option Nat :=
  let (n, d) := Double.scaled 10 grid num den
  let below := n / d
  match decide (Double.ofDecimal false below grid = x),
      decide (Double.ofDecimal false (below + 1) grid = x) with
  | true, true => some (Double.rounded n d)
  | true, false => some below
  | false, true => some (below + 1)
  | false, false => none

/-- The most digits that a number in double precision needs. -/
def maxDigits : Nat := 17

/-- The shortest decimal for `mantissa * 2 ^ exponent`; the mantissa must not be zero. -/
def shortest (mantissa : Nat) (exponent : Int) : Decimal :=
  let (num, den) := Double.scaled 2 (-exponent) mantissa 1
  let top := magnitude num den
  let found := (List.range maxDigits).findSome? fun count =>
    let grid := top - (count + 1 : Nat)
    (onGrid? (.finite false mantissa exponent) num den grid).map fun n => ofGrid n grid
  found.getD (ofGrid (num * Nat.pow 5 (-exponent).toNat) (min exponent 0))

end Decimal

end StepGlue
