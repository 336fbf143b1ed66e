import StepGlue.Json.Basic
import StepGlue.Machine

/-!
Reading JSON text. Each reader takes a value off the front of a text and gives the rest.
-/

namespace StepGlue.Json

inductive Container where
  | array
  | object
deriving DecidableEq, Repr

inductive ReadError where
  | malformed
  /-- An integer with more digits than the reader converts. -/
  | integerTooLong (digits : Nat)
  /-- An array or object inside as many as the reader enters. -/
  | tooDeep (container : Container)
deriving DecidableEq, Repr

namespace Reader

open StepGlue.Text

def isSpace (c : Char) : Bool :=
  c == ' ' || c == '\t' || c == '\n' || c == '\r'

def skipSpace (s : List Char) : List Char :=
  s.dropWhile isSpace

def hexValue? (c : Char) : Option Nat :=
  if '0' ≤ c && c ≤ '9' then some (c.toNat - 48)
  else if 'a' ≤ c && c ≤ 'f' then some (c.toNat - 87)
  else if 'A' ≤ c && c ≤ 'F' then some (c.toNat - 55)
  else none

/-- The number that four hexadecimal digits at the front of a text stand for. -/
def unit? : List Char → Option Nat
  | a :: b :: c :: d :: _ => do
    let a ← hexValue? a
    let b ← hexValue? b
    let c ← hexValue? c
    let d ← hexValue? d
    return ((a * 16 + b) * 16 + c) * 16 + d
  | _ => none

/-- The low surrogate that an escape at the front of a text stands for. -/
def lowSurrogate? : List Char → Option Nat
  | '\\' :: 'u' :: rest => (unit? rest).filter Surrogate.isLow
  | _ => none

variable [StandIns]

/-- The character that an escape stands for, and its length after the backslash. A surrogate takes
the one that belongs to it along, if there is one. -/
def escape? : List Char → Option (Char × Nat)
  | '"' :: _ => some ('"', 1)
  | '\\' :: _ => some ('\\', 1)
  | '/' :: _ => some ('/', 1)
  | 'b' :: _ => some ('\x08', 1)
  | 'f' :: _ => some ('\x0c', 1)
  | 'n' :: _ => some ('\n', 1)
  | 'r' :: _ => some ('\r', 1)
  | 't' :: _ => some ('\t', 1)
  | 'u' :: rest => do
    let n ← unit? rest
    match if Surrogate.isHigh n then lowSurrogate? (rest.drop 4) else none with
    | some low => return (Surrogate.join n low, 11)
    | none => return (← StandIns.charOf? n, 5)
  | _ => none

def stringBody : List Char → Except ReadError (List Char × List Char)
  | [] => .error .malformed
  | c :: rest =>
    if c = '"' then .ok ([], rest)
    else if c = '\\' then
      match escape? rest with
      | none => .error .malformed
      | some (e, length) => do
        let (cs, after) ← stringBody (rest.drop length)
        return (e :: cs, after)
    else if c.toNat < 0x20 then .error .malformed
    else do
      let (cs, after) ← stringBody rest
      return (c :: cs, after)
termination_by s => s.length
decreasing_by all_goals simp only [List.length_drop, List.length_cons]; omega

def digitsValue (digits : List Char) : Nat :=
  digits.foldl (fun n c => n * 10 + (c.toNat - 48)) 0

def fraction (s : List Char) : List Char × List Char :=
  match s with
  | '.' :: rest =>
    if rest.head?.any Char.isDigit then (rest.takeWhile Char.isDigit, rest.dropWhile Char.isDigit)
    else ([], s)
  | _ => ([], s)

def exponent (s : List Char) : Option Int × List Char :=
  match s with
  | e :: rest =>
    let (negative, digits) := match rest with
      | '+' :: more => (false, more)
      | '-' :: more => (true, more)
      | _ => (false, rest)
    if (e == 'e' || e == 'E') && digits.head?.any Char.isDigit then
      let power := digitsValue (digits.takeWhile Char.isDigit)
      (some (if negative then -(power : Int) else power), digits.dropWhile Char.isDigit)
    else (none, s)
  | [] => (none, [])

/-- The number with the digits `whole` before the point and `part` after it. -/
def real (negative : Bool) (whole part : List Char) (power : Int) : Double :=
  Double.ofDecimal negative (digitsValue (whole ++ part)) (power - part.length)

/-- A number whose digits start at the front of the text. -/
def unsigned (negative : Bool) (s : List Char) : Except ReadError (Json × List Char) :=
  let whole := if s.head? = some '0' then ['0'] else s.takeWhile Char.isDigit
  if whole.isEmpty then .error .malformed
  else
    let (part, afterPart) := fraction (s.drop whole.length)
    match exponent afterPart with
    | (none, rest) =>
      if part.isEmpty then
        if maxDigits < whole.length then .error (.integerTooLong whole.length)
        else .ok (.int (if negative then -(digitsValue whole : Int) else digitsValue whole), rest)
      else .ok (.real (real negative whole part 0), rest)
    | (some power, rest) => .ok (.real (real negative whole part power), rest)

def scalar : List Char → Except ReadError (Json × List Char)
  | 'n' :: 'u' :: 'l' :: 'l' :: rest => .ok (.null, rest)
  | 't' :: 'r' :: 'u' :: 'e' :: rest => .ok (.bool true, rest)
  | 'f' :: 'a' :: 'l' :: 's' :: 'e' :: rest => .ok (.bool false, rest)
  | 'N' :: 'a' :: 'N' :: rest => .ok (.real .notANumber, rest)
  | 'I' :: 'n' :: 'f' :: 'i' :: 'n' :: 'i' :: 't' :: 'y' :: rest =>
    .ok (.real (.infinite false), rest)
  | '-' :: 'I' :: 'n' :: 'f' :: 'i' :: 'n' :: 'i' :: 't' :: 'y' :: rest =>
    .ok (.real (.infinite true), rest)
  | '-' :: rest => unsigned true rest
  | s => unsigned false s

mutual

/-- A value at the front of the text. Arrays and objects stand inside one another as long as there
is `room`, and `fuel` bounds the number of readers that are started. -/
def value (room : Option Nat) : Nat → List Char → Except ReadError (Json × List Char)
  | 0, _ => .error .malformed
  | _ + 1, '"' :: rest => do
    let (cs, after) ← stringBody rest
    return (.str (String.ofList cs), after)
  | fuel + 1, '[' :: rest =>
    if room = some 0 then .error (.tooDeep .array)
    else match skipSpace rest with
      | ']' :: after => .ok (.arr [], after)
      | more => do
        let (vs, after) ← items (room.map (· - 1)) fuel more
        return (.arr vs, after)
  | fuel + 1, '{' :: rest =>
    if room = some 0 then .error (.tooDeep .object)
    else match skipSpace rest with
      | '}' :: after => .ok (.obj [], after)
      | more => do
        let (pairs, after) ← members (room.map (· - 1)) fuel more
        return (.obj (Object.ofPairs pairs), after)
  | _ + 1, s => scalar s

def items (room : Option Nat) : Nat → List Char → Except ReadError (List Json × List Char)
  | 0, _ => .error .malformed
  | fuel + 1, s => do
    let (v, after) ← value room fuel s
    match skipSpace after with
    | ']' :: rest => return ([v], rest)
    | ',' :: rest =>
      let (vs, last) ← items room fuel (skipSpace rest)
      return (v :: vs, last)
    | _ => .error .malformed

def members (room : Option Nat) :
    Nat → List Char → Except ReadError (List (String × Json) × List Char)
  | 0, _ => .error .malformed
  | fuel + 1, '"' :: s => do
    let (name, afterName) ← stringBody s
    match skipSpace afterName with
    | ':' :: more =>
      let (v, after) ← value room fuel (skipSpace more)
      match skipSpace after with
      | '}' :: rest => return ([(String.ofList name, v)], rest)
      | ',' :: rest =>
        let (pairs, last) ← members room fuel (skipSpace rest)
        return ((String.ofList name, v) :: pairs, last)
      | _ => .error .malformed
    | _ => .error .malformed
  | _ + 1, _ => .error .malformed

end

end Reader

/-- The value that a whole text holds, with no more arrays and objects inside one another than there
is room for. -/
def readWithin [Text.StandIns] (room : Option Nat) (text : String) : Except ReadError Json := do
  let s := text.toList
  let (v, rest) ← Reader.value room (2 * s.length + 2) (Reader.skipSpace s)
  if (Reader.skipSpace rest).isEmpty then return v else throw .malformed

def read [Machine] (text : String) : Except ReadError Json :=
  readWithin (Machine.limit Nesting.read) text

end StepGlue.Json
