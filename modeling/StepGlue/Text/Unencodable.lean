import StepGlue.Text.EscapedBytes

/-!
Texts that an encoding has no form for: ASCII ends with the first 128 characters, and UTF-8 has none
for lone surrogates. In the names of files some of them are escapes of bytes.
-/

namespace StepGlue.Text

inductive Charset where
  | ascii
  | utf8
  | fileName
deriving DecidableEq, Repr

namespace Charset

def word : Charset → String
  | ascii => "ascii"
  | utf8 | fileName => "utf-8"

def objection : Charset → String
  | ascii => "ordinal not in range(128)"
  | utf8 | fileName => "surrogates not allowed"

end Charset

/-- A run of `length` characters from `position` on that are special in a charset, the first of
which it does not admit; `number` is that of the first. -/
structure Unencodable where
  charset : Charset
  position : Nat
  length : Nat
  number : Nat
deriving DecidableEq, Repr

def Unencodable.message (u : Unencodable) : String :=
  let place :=
    if u.length = 1 then
      "character '" ++ String.ofList (numericEscape u.number) ++ "' in position " ++
        toString u.position
    else
      "characters in position " ++ toString u.position ++ "-" ++
        toString (u.position + u.length - 1)
  "'" ++ u.charset.word ++ "' codec can't encode " ++ place ++ ": " ++ u.charset.objection

variable [StandIns]

namespace Charset

/-- Whether a charset has no form of its own for a character. -/
def isSpecial : Charset → Char → Bool
  | ascii, c => 0x80 ≤ c.toNat
  | utf8, c | fileName, c => (StandIns.surrogate? c).isSome

def admits (charset : Charset) (c : Char) : Bool :=
  !charset.isSpecial c || (charset == fileName && (EscapedBytes.byte? c).isSome)

def unencodable? (charset : Charset) (text : String) : Option Unencodable :=
  let before := text.toList.takeWhile charset.admits
  let run := (text.toList.drop before.length).takeWhile charset.isSpecial
  run.head?.map fun c =>
    { charset
      position := before.length
      length := run.length
      number := StandIns.number c }

theorem isSpecial_of_not_admits {charset : Charset} {c : Char} (h : ¬charset.admits c) :
    charset.isSpecial c := by
  cases hspecial : charset.isSpecial c <;> simp_all [admits]

theorem unencodable?_eq_none_iff (charset : Charset) (text : String) :
    charset.unencodable? text = none ↔ text.toList.all charset.admits := by
  simp only [unencodable?]
  generalize text.toList = s
  induction s with
  | nil => simp
  | cons c rest ih =>
    by_cases h : charset.admits c = true
    · simp_all
    · simp [h, isSpecial_of_not_admits h]

end Charset

def isEncodable (text : String) : Bool :=
  text.toList.all Charset.utf8.admits

end StepGlue.Text
