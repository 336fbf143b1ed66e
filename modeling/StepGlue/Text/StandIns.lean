import StepGlue.Text.Quoted
import StepGlue.Text.Surrogate

/-!
Stand-ins for lone surrogates. Two surrogates that belong together make a character and a lone one
makes none, so a text that is read with one holds a character of private use in its place.
-/

namespace StepGlue.Text

/-- The characters that stand in for lone surrogates, in their order from the first on. Texts hold
them for nothing else. Without any, lone surrogates are read as replacement characters. -/
class StandIns where
  first? : Option Nat
  isPrivate : ∀ first ∈ first?, 0xF0000 ≤ first ∧ first + 0x800 ≤ 0x110000

namespace StandIns

def firstOf (block : Fin 64) : Nat :=
  0xF0000 + 0x800 * block

@[reducible] def ofBlock? (block : Option (Fin 64)) : StandIns where
  first? := block.map firstOf
  isPrivate := by
    intro first h
    obtain ⟨block, -, rfl⟩ := Option.map_eq_some_iff.1 h
    simp only [firstOf]
    omega

def holds (part : List Char) : List Char → Bool
  | [] => part.isEmpty
  | c :: rest => part.isPrefixOf (c :: rest) || holds part rest

/-- What a text in lower case holds if it writes a character of a block in UTF-16 or UTF-8, its
digits in hexadecimal or after percent signs, or in UTF-32. -/
def spellings (block : Fin 64) : List (List Char) :=
  let high := 0xD800 + (firstOf block - 0x10000) / 0x400
  let lead := hexDigits 2 (0xF0 + firstOf block / 0x40000)
  [ hexDigits 4 high, hexDigits 4 (high + 1), '%' :: lead, '2' :: '5' :: lead,
    [Char.ofNat (firstOf block / 0x10000)] ]

/-- Whether a text holds characters of a block, or could be read to do so. -/
def isUsedBy (block : Fin 64) (text : List Char) : Bool :=
  text.any (fun c => firstOf block ≤ c.toNat && c.toNat < firstOf block + 0x800) ||
    let lowered := text.map Char.toLower
    (spellings block).any fun spelling => holds spelling lowered

/-- A block that a text does not use, if there is one. -/
def blockApartFrom? (text : String) : Option (Fin 64) :=
  let s := text.toList
  (List.finRange 64).reverse.find? fun block => !isUsedBy block s

theorem toNat_ofNat {n : Nat} (h : n.isValidChar) : (Char.ofNat n).toNat = n := by
  unfold Char.ofNat
  rw [dif_pos h]
  rfl

variable [StandIns]

def standIn (surrogate : Nat) : Char :=
  match first? with
  | some first => Char.ofNat (first + (surrogate - 0xD800))
  | none => '\ufffd'

/-- The character of a number, or the stand-in if the number is a surrogate. -/
def charOf? (n : Nat) : Option Char :=
  if Surrogate.isSurrogate n then some (standIn n)
  else if n.isValidChar then some (Char.ofNat n)
  else none

/-- The surrogate that a character stands in for. -/
def surrogate? (c : Char) : Option Nat := do
  let first ← first?
  if first ≤ c.toNat && c.toNat < first + 0x800 then some (0xD800 + (c.toNat - first)) else none

/-- The number of a character, or the surrogate that it stands in for. -/
def number (c : Char) : Nat :=
  (surrogate? c).getD c.toNat

def quoted (s : String) : String :=
  quotedBy number s

/-- A text with replacement characters for its lone surrogates, each of which takes three bytes. -/
def shown (s : String) : String :=
  String.ofList (s.toList.flatMap fun c =>
    if (surrogate? c).isSome then List.replicate 3 '\ufffd' else [c])

theorem surrogate?_standIn {n first : Nat} (h : Surrogate.isSurrogate n)
    (hfirst : first? = some first) : surrogate? (standIn n) = some n := by
  have hrange := Surrogate.isSurrogate_iff.1 h
  have hprivate := isPrivate first hfirst
  have hvalid : (first + (n - 0xD800)).isValidChar := by
    right
    omega
  simp only [surrogate?, standIn, hfirst, toNat_ofNat hvalid]
  simp only [Option.bind_eq_bind, Option.bind_some]
  rw [if_pos (by simp; omega)]
  congr 1
  omega

end StandIns

end StepGlue.Text
