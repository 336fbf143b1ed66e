import StepGlue.Text.StandIns
import StepGlue.Text.Utf8

/-!
Texts for bytes that need not be UTF-8. A byte outside of well formed sequences is written as one of
the surrogates from U+DC80 to U+DCFF. Several texts can stand for the same bytes; one of them is
what the bytes are read as.
-/

namespace StepGlue.Text.EscapedBytes

variable [StandIns]

def byte? (c : Char) : Option UInt8 := do
  let n ← StandIns.surrogate? c
  if 0xDC80 ≤ n && n < 0xDD00 then some (n - 0xDC00).toUInt8 else none

/-- The escape of a byte from 0x80 on. -/
def escape (b : UInt8) : Char :=
  StandIns.standIn (0xDC00 + b.toNat)

def bytesOfChar (c : Char) : List UInt8 :=
  match byte? c with
  | some b => [b]
  | none => String.utf8EncodeChar c

def bytes (text : String) : List UInt8 :=
  text.toList.flatMap bytesOfChar

def size (text : String) : Nat :=
  (bytes text).length

def ofBytes (bytes : List UInt8) : String :=
  String.ofList (Utf8.decodeWith (·.map escape) bytes)

/-- What the bytes of a text are read as. -/
def canonical (text : String) : String :=
  if text.toList.any fun c => (byte? c).isSome then ofBytes (bytes text) else text

theorem canonical_eq_self {text : String} (h : ∀ c ∈ text.toList, byte? c = none) :
    canonical text = text := by
  simp only [canonical, List.any_eq_true]
  rw [if_neg]
  rintro ⟨c, hc, hbyte⟩
  simp [h c hc] at hbyte

end StepGlue.Text.EscapedBytes
