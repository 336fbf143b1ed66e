import StepGlue.Text.StandIns

/-!
Reading UTF-16 and UTF-32, in either order of bytes. Lone surrogates are let through.
-/

namespace StepGlue.Text.Units

inductive ByteOrder where
  | bigEndian
  | littleEndian
deriving DecidableEq, Repr

def number (order : ByteOrder) (bytes : List UInt8) : Nat :=
  match order with
  | .bigEndian => bytes.foldl (fun n b => n * 256 + b.toNat) 0
  | .littleEndian => bytes.foldr (fun b n => n * 256 + b.toNat) 0

def pairs? (order : ByteOrder) : List UInt8 → Option (List Nat)
  | [] => some []
  | [_] => none
  | a :: b :: rest => (pairs? order rest).map (number order [a, b] :: ·)

def quads? (order : ByteOrder) : List UInt8 → Option (List Nat)
  | [] => some []
  | a :: b :: c :: d :: rest => (quads? order rest).map (number order [a, b, c, d] :: ·)
  | _ => none

variable [StandIns]

/-- The characters of 16-bit units; two surrogates that belong together make one character. -/
def ofUnits? : List Nat → Option (List Char)
  | [] => some []
  | high :: low :: rest =>
    if Surrogate.isHigh high && Surrogate.isLow low then
      (ofUnits? rest).map (Surrogate.join high low :: ·)
    else do
      let c ← StandIns.charOf? high
      return c :: (← ofUnits? (low :: rest))
  | [n] => (StandIns.charOf? n).map ([·])

def decode16? (order : ByteOrder) (bytes : List UInt8) : Option String :=
  ((pairs? order bytes).bind ofUnits?).map String.ofList

def decode32? (order : ByteOrder) (bytes : List UInt8) : Option String :=
  ((quads? order bytes).bind fun units => units.mapM StandIns.charOf?).map String.ofList

end StepGlue.Text.Units
