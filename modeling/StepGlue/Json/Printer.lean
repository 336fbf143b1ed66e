import StepGlue.Json.Basic
import StepGlue.Number.Shortest
import StepGlue.Text.StandIns

/-!
Two written forms of a JSON value: laid out over lines, and on one line in ASCII.
-/

namespace StepGlue.Json

open StepGlue.Text

def escapedChar (c : Char) : List Char :=
  if c = '"' then ['\\', '"']
  else if c = '\\' then ['\\', '\\']
  else if c = '\n' then ['\\', 'n']
  else if c = '\r' then ['\\', 'r']
  else if c = '\t' then ['\\', 't']
  else if c = '\x0c' then ['\\', 'f']
  else if c = '\x08' then ['\\', 'b']
  else if c.toNat < 0x20 then '\\' :: 'u' :: hexDigits 4 c.toNat
  else [c]

def stringText (s : String) : List Char :=
  '"' :: s.toList.flatMap escapedChar ++ ['"']

/-- A decimal with its point in place, or with an exponent where that would stand far outside the
digits. -/
def decimalText (d : Decimal) : List Char :=
  let count : Int := d.digits.length
  if -4 < d.point && d.point ≤ 16 then
    if d.point ≤ 0 then '0' :: '.' :: List.replicate (-d.point).toNat '0' ++ d.digits
    else if count ≤ d.point then
      d.digits ++ List.replicate (d.point - count).toNat '0' ++ ['.', '0']
    else d.digits.take d.point.toNat ++ '.' :: d.digits.drop d.point.toNat
  else
    let power := (toString (d.point - 1).natAbs).toList
    d.digits.take 1 ++ (if 1 < count then '.' :: d.digits.drop 1 else []) ++
      'e' :: (if d.point < 1 then '-' else '+') :: List.replicate (2 - power.length) '0' ++ power

/-- A real number, given the words for what is no number and for infinity. -/
def realText (notANumber infinity : String) : Double → String
  | .finite negative mantissa exponent =>
    (if negative then "-" else "") ++
      if mantissa = 0 then "0.0"
      else String.ofList (decimalText (Decimal.shortest mantissa exponent))
  | .infinite negative => (if negative then "-" else "") ++ infinity
  | .notANumber => notANumber

def numberText (x : Double) : String :=
  realText "NaN" "Infinity" x

def newLine (depth : Nat) : List Char :=
  '\n' :: List.replicate (2 * depth) ' '

mutual

/-- The layout over lines before a text: two spaces a level, empty arrays and objects on one
line. -/
def layoutBefore (depth : Nat) : Json → List Char → List Char
  | null, text => "null".toList ++ text
  | bool b, text => (if b then "true" else "false").toList ++ text
  | int n, text => (toString n).toList ++ text
  | real x, text => (numberText x).toList ++ text
  | str s, text => stringText s ++ text
  | arr [], text => '[' :: ']' :: text
  | arr (v :: vs), text =>
    '[' :: (newLine (depth + 1) ++ layoutBefore (depth + 1) v
      (itemsBefore (depth + 1) vs (newLine depth ++ ']' :: text)))
  | obj [], text => '{' :: '}' :: text
  | obj ((name, v) :: rest), text =>
    '{' :: (newLine (depth + 1) ++ (stringText name ++ ':' :: ' ' :: layoutBefore (depth + 1) v
      (membersBefore (depth + 1) rest (newLine depth ++ '}' :: text))))

def itemsBefore (depth : Nat) : List Json → List Char → List Char
  | [], text => text
  | v :: vs, text => ',' :: (newLine depth ++ layoutBefore depth v (itemsBefore depth vs text))

def membersBefore (depth : Nat) : List (String × Json) → List Char → List Char
  | [], text => text
  | (name, v) :: rest, text =>
    ',' :: (newLine depth ++ (stringText name ++ ':' :: ' ' ::
      layoutBefore depth v (membersBefore depth rest text)))

end

def layout (v : Json) : String :=
  String.ofList (layoutBefore 0 v [])

variable [StandIns]

/-- A character of a string in the one line form, in ASCII. -/
def asciiChar (c : Char) : List Char :=
  if c.toNat < 0x7F then escapedChar c
  else if c.toNat < 0x10000 then '\\' :: 'u' :: hexDigits 4 c.toNat
  else match StandIns.surrogate? c with
    | some n => '\\' :: 'u' :: hexDigits 4 n
    | none =>
      '\\' :: 'u' :: hexDigits 4 (0xD800 + (c.toNat - 0x10000) / 0x400) ++
        '\\' :: 'u' :: hexDigits 4 (0xDC00 + (c.toNat - 0x10000) % 0x400)

def asciiString (s : String) : String :=
  String.ofList ('"' :: s.toList.flatMap asciiChar ++ ['"'])

mutual

def compact : Json → String
  | null => "null"
  | bool b => if b then "true" else "false"
  | int n => toString n
  | real x => numberText x
  | str s => asciiString s
  | arr vs => "[" ++ ",".intercalate (compactItems vs) ++ "]"
  | obj members => "\x7b" ++ ",".intercalate (compactMembers members) ++ "\x7d"

def compactItems : List Json → List String
  | [] => []
  | v :: vs => compact v :: compactItems vs

def compactMembers : List (String × Json) → List String
  | [] => []
  | (name, v) :: rest => (asciiString name ++ ":" ++ compact v) :: compactMembers rest

end

end StepGlue.Json
