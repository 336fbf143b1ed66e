import StepGlue.Text.StandIns

/-!
What there is room for. Values that go too many levels down do not fit onto the stack, and too many
blanks do not fit into memory. How much room there is depends on the machine and on the calls under
way, so nothing is said of it but how its parts compare. It is taken to be the same at every call.
-/

namespace StepGlue

/-- Whether a number is within a limit, if there is one. -/
def Within (limit : Option Nat) (n : Nat) : Prop :=
  ∀ m ∈ limit, n ≤ m

instance (limit : Option Nat) (n : Nat) : Decidable (Within limit n) :=
  inferInstanceAs (Decidable (∀ m ∈ limit, n ≤ m))

/-- How many levels a stack has room for. Copying takes two calls a level, reading and writing take
one, and a section of texts and lists of texts can always be copied. -/
structure Nesting where
  /-- Arrays and objects inside one another that are read. -/
  read : Nat
  /-- Values inside one another that are written. -/
  written : Nat
  copied : Nat
  shown : Nat
  three_le_copied : 3 ≤ copied
  copied_lt_read : copied < read
  copied_lt_written : copied < written

/-- What the program runs on. -/
class Machine extends Text.StandIns where
  /-- What the stack has room for, if it is bounded. -/
  nesting : Option Nesting
  /-- How many blanks memory has room for, if it is bounded. -/
  blanks : Option Nat
  /-- How many missing directories above another one are made at once. -/
  newDirectories : Nat

namespace Machine

variable [Machine]

/-- The limit that the stack sets to something. -/
def limit (part : Nesting → Nat) : Option Nat :=
  nesting.map part

end Machine

end StepGlue
