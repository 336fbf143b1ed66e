import StepGlue.Fault
import StepGlue.Json.Reader
import StepGlue.Text.Blank

/-!
Integers as people write them: blanks around them, a plus sign, zeros before them with underscores
among these, single underscores between digits and a fraction of zeros are accepted.
-/

namespace StepGlue.LenientInteger

open StepGlue.Text

/-- White space around an integer; the information separators are not part of it. -/
def isMargin (c : Char) : Bool :=
  isBlank c && !(28 ≤ c.toNat && c.toNat ≤ 31)

def withoutMargins (s : List Char) : List Char :=
  ((s.dropWhile isMargin).reverse.dropWhile isMargin).reverse

def withoutPlus? : List Char → Option (List Char)
  | '+' :: '-' :: _ => none
  | '+' :: rest => some rest
  | s => some s

/-- The rest of a run of zeros and underscores, from its last character or from the digit or minus
sign after it on. -/
def afterZeros? (last : Char) : List Char → Option (List Char)
  | [] => some [last]
  | c :: rest =>
    if c = '0' || c = '_' then afterZeros? c rest
    else if c = '.' then some (last :: c :: rest)
    else if c.isDigit || c = '-' then some (c :: rest)
    else none

def fromFirstDigit? : List Char → Option (List Char)
  | [] => none
  | c :: rest =>
    if c = '0' then afterZeros? c rest
    else if c.isDigit then some (c :: rest)
    else none

/-- A text without the zeros before its number; they may stand after a minus sign. -/
def withoutLeadingZeros? : List Char → Option (List Char)
  | '-' :: rest => (fromFirstDigit? rest).map ('-' :: ·)
  | s => fromFirstDigit? s

/-- A text without a point and one or more zeros after it. -/
def withoutZeroFraction (s : List Char) : List Char :=
  match s.dropWhile (· != '.') with
  | '.' :: '0' :: fraction => if fraction.all (· == '0') then s.takeWhile (· != '.') else s
  | _ => s

def hasDoubleUnderscore : List Char → Bool
  | [] => false
  | c :: rest => (c == '_' && rest.head? == some '_') || hasDoubleUnderscore rest

/-- Removes underscores if each stands alone and inside. -/
def withoutUnderscores (s : List Char) : List Char :=
  if s.head? = some '_' || s.getLast? = some '_' || hasDoubleUnderscore s then s
  else s.filter (· != '_')

/-- The digits of the number at the front of a text; a zero stands alone. -/
def leadingDigits (s : List Char) : List Char :=
  if s.head? = some '0' then ['0'] else s.takeWhile Char.isDigit

def afterMinus : List Char → List Char
  | '-' :: rest => rest
  | s => s

def startsTooLong (s : List Char) : Bool :=
  Json.maxDigits < (leadingDigits (afterMinus s)).length

def natural? (s : List Char) : Option Nat :=
  let digits := leadingDigits s
  if digits.isEmpty || digits.length < s.length || startsTooLong s then none
  else some (Json.Reader.digitsValue digits)

def plain? : List Char → Option Int
  | '-' :: digits => (natural? digits).map fun n => -(n : Int)
  | digits => (natural? digits).map fun n => (n : Int)

/-- A text reduced to a plain integer, if that can be done. -/
def cleaned? (s : List Char) : Option (List Char) :=
  ((withoutPlus? (withoutMargins s)).bind withoutLeadingZeros?).map fun s =>
    withoutUnderscores (withoutZeroFraction s)

/-- Reads an integer. It counts as too long only if the text starts with its digits as they are. -/
def parse (text : String) : Except Fault.Kind Int :=
  if startsTooLong text.toList then .error .integerTooLong
  else match (cleaned? text.toList).bind plain? with
    | some n => .ok n
    | none => .error .unreadableInteger

end StepGlue.LenientInteger
