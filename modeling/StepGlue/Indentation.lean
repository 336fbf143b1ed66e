import StepGlue.Failure
import StepGlue.Machine
import StepGlue.Text.Lines

/-!
Indenting source lines by the balance of their braces. A line that starts with a closing brace
stands one level lower, and a line that ends with an opening one raises the level after it; braces
elsewhere, in strings and comments too, play no part.
-/

namespace StepGlue.Indentation

open StepGlue.Text

def defaultSize : Int := 4

def closes (line : List Char) : Bool :=
  line.head? == some '}'

def opens (line : List Char) : Bool :=
  line.getLast? == some '{'

/-- The lines of a text, trimmed, with their levels from one on; blank lines have level zero. -/
def levels (level : Nat) : List (List Char) → List (Nat × List Char)
  | [] => []
  | line :: rest =>
    let trimmed := trim line
    if trimmed.isEmpty then (0, []) :: levels level rest
    else
      let here := if closes trimmed then level - 1 else level
      (here, trimmed) :: levels (if opens trimmed then here + 1 else here) rest

/-- The number of spaces before a line; a negative size stands for none. -/
def width (size : Int) (level : Nat) : Except Failure Nat :=
  let spaces := level * size
  if spaces < -0x8000000000000000 ∨ 0x8000000000000000 ≤ spaces then .error .widthOutOfRange
  else .ok spaces.toNat

variable [Machine]

/-- Some lines with the spaces before them, as long as memory has room for these besides those that
are there. -/
def indent (size : Int) (spaces : Nat) :
    List (Nat × List Char) → Except Failure (List (List Char))
  | [] => .ok []
  | (level, line) :: rest => do
    let here ← width size level
    if Within Machine.blanks (spaces + here) then
      return (List.replicate here ' ' ++ line) :: (← indent size (spaces + here) rest)
    else throw .outOfMemory

def format (size : Int) (code : String) : Except Failure String := do
  let lines ← indent size 0 (levels 0 (splitOn '\n' code.toList))
  return String.ofList (['\n'].intercalate lines)

end StepGlue.Indentation
