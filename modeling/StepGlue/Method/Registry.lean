/-!
Unique method names. A name that is taken gets the first free number from a remembered start on.
-/

namespace StepGlue

structure Registry where
  used : List String
  /-- Where the search for a free number starts, for names that needed one. -/
  nextSuffix : List (String × Nat)
deriving Repr

namespace Registry

def empty : Registry where
  used := []
  nextSuffix := []

def contains (r : Registry) (name : String) : Bool :=
  r.used.contains name

/-- The least number from `start` on that makes a name outside `used`, of the first
`attempts + 1`. -/
def freeSuffix (used : List String) (base : String) (start : Nat) : (attempts : Nat) → Nat
  | 0 => start
  | attempts + 1 =>
    if used.contains (base ++ toString start) then freeSuffix used base (start + 1) attempts
    else start

/-- Takes `base` if it is free, and else `base` with a number. -/
def reserve (r : Registry) (base : String) : String × Registry :=
  if r.contains base then
    let start := (r.nextSuffix.lookup base).getD 1
    let suffix := freeSuffix r.used base start r.used.length
    let name := base ++ toString suffix
    (name, { used := name :: r.used, nextSuffix := (base, suffix + 1) :: r.nextSuffix })
  else (base, { r with used := base :: r.used })

end Registry

end StepGlue
