/-!
Maps kept as lists of pairs, in the order in which the keys were first set.
-/

namespace StepGlue.PairList

variable {κ α : Type} [DecidableEq κ]

def get? (pairs : List (κ × α)) (key : κ) : Option α :=
  match pairs with
  | [] => none
  | (other, value) :: rest => if key = other then some value else get? rest key

/-- Sets a value in place, or adds it at the end. -/
def set (pairs : List (κ × α)) (key : κ) (value : α) : List (κ × α) :=
  match pairs with
  | [] => [(key, value)]
  | (other, old) :: rest =>
    if key = other then (key, value) :: rest else (other, old) :: set rest key value

def update (pairs changes : List (κ × α)) : List (κ × α) :=
  changes.foldl (fun acc change => set acc change.1 change.2) pairs

theorem get?_set (pairs : List (κ × α)) (key : κ) (value : α) (other : κ) :
    get? (set pairs key value) other = if other = key then some value else get? pairs other := by
  induction pairs with
  | nil => simp [set, get?]
  | cons head rest ih =>
    obtain ⟨first, old⟩ := head
    by_cases h : key = first
    · subst h
      by_cases h' : other = key <;> simp [set, get?, h']
    · by_cases h' : other = first
      · simp [set, h, get?, h', Ne.symm h]
      · simp [set, h, get?, h', ih]

end StepGlue.PairList
