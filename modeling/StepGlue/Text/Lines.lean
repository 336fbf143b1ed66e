import StepGlue.Text.Blank

/-!
Cutting a text into lines, with line feeds, carriage returns or both as breaks.
-/

namespace StepGlue.Text

/-- The pieces between the occurrences of `sep`; always at least one. -/
def splitOn (sep : Char) : List Char → List (List Char)
  | [] => [[]]
  | c :: rest =>
    if c = sep then [] :: splitOn sep rest
    else match splitOn sep rest with
      | [] => [[c]]
      | piece :: others => (c :: piece) :: others

theorem splitOn_ne_nil (sep : Char) (s : List Char) : splitOn sep s ≠ [] := by
  cases s with
  | nil => simp [splitOn]
  | cons c rest =>
    rw [splitOn]
    split
    · simp
    · split <;> simp

/-- Every break becomes one line feed, a carriage return before a line feed included. -/
def unifyBreaks : List Char → List Char
  | [] => []
  | '\r' :: '\n' :: rest => '\n' :: unifyBreaks rest
  | c :: rest => (if c = '\r' then '\n' else c) :: unifyBreaks rest

def splitLines (text : String) : List String :=
  (splitOn '\n' (unifyBreaks text.toList)).map fun line => String.ofList (trim line)

def isLineBreak (c : Char) : Bool :=
  (10 ≤ c.toNat && c.toNat ≤ 13) || (28 ≤ c.toNat && c.toNat ≤ 30) || c.toNat == 0x85 ||
    c.toNat == 0x2028 || c.toNat == 0x2029

/-- The number of lines a reader counts; a break at the very end adds none. -/
def lineCount : List Char → Nat
  | [] => 0
  | '\r' :: '\n' :: rest => lineCount rest + 1
  | c :: rest => if isLineBreak c then lineCount rest + 1 else max 1 (lineCount rest)

end StepGlue.Text
