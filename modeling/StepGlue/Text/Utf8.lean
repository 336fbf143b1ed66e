import StepGlue.Text.Quoted

/-!
Reading UTF-8. A fault names the byte where the first malformed sequence starts and how many bytes
belong to it.
-/

namespace StepGlue.Text.Utf8

inductive Fault where
  | invalidStart
  | invalidContinuation
  | unexpectedEnd
deriving DecidableEq, Repr

def Fault.message : Fault → String
  | .invalidStart => "invalid start byte"
  | .invalidContinuation => "invalid continuation byte"
  | .unexpectedEnd => "unexpected end of data"

/-- A malformed sequence of `length` bytes that starts with `byte` at `position`. -/
structure DecodeError where
  fault : Fault
  position : Nat
  length : Nat
  byte : UInt8
deriving DecidableEq, Repr

def DecodeError.message (e : DecodeError) : String :=
  let place :=
    if e.length = 1 then
      "byte 0x" ++ String.ofList (hexDigits 2 e.byte.toNat) ++ " in position " ++
        toString e.position
    else
      "bytes in position " ++ toString e.position ++ "-" ++ toString (e.position + e.length - 1)
  "'utf-8' codec can't decode " ++ place ++ ": " ++ e.fault.message

def isContinuation (b : UInt8) : Bool :=
  0x80 ≤ b && b < 0xC0

/-- The number of continuation bytes after a first byte. -/
def continuationCount? (b : UInt8) : Option Nat :=
  if b < 0x80 then some 0
  else if b < 0xC2 then none
  else if b < 0xE0 then some 1
  else if b < 0xF0 then some 2
  else if b < 0xF5 then some 3
  else none

/-- Whether the second byte keeps the sequence shortest, off the surrogates and in range. -/
def secondFits (first second : UInt8) : Bool :=
  isContinuation second &&
    !(first == 0xE0 && second < 0xA0) && !(first == 0xED && 0xA0 ≤ second) &&
    !(first == 0xF0 && second < 0x90) && !(first == 0xF4 && 0x90 ≤ second)

/-- The fault among `count` continuation bytes, with the length of the malformed sequence when
`read` bytes of it are fine. -/
def continuationFault? (first : UInt8) : (read count : Nat) → List UInt8 → Option (Fault × Nat)
  | _, 0, _ => none
  | read, _ + 1, [] => some (.unexpectedEnd, read)
  | read, count + 1, b :: rest =>
    if read = 1 && !secondFits first b || !isContinuation b then some (.invalidContinuation, read)
    else continuationFault? first (read + 1) count rest

def codePoint (first : UInt8) (continuation : List UInt8) : Nat :=
  let lead := match continuation.length with
    | 0 => first.toNat
    | 1 => first.toNat - 0xC0
    | 2 => first.toNat - 0xE0
    | _ => first.toNat - 0xF0
  continuation.foldl (fun n b => n * 64 + (b.toNat - 0x80)) lead

def decodeAt (position : Nat) : List UInt8 → Except DecodeError (List Char)
  | [] => .ok []
  | first :: rest =>
    match continuationCount? first with
    | none => .error ⟨.invalidStart, position, 1, first⟩
    | some count =>
      match continuationFault? first 1 count rest with
      | some (fault, length) => .error ⟨fault, position, length, first⟩
      | none => do
        let others ← decodeAt (position + 1 + count) (rest.drop count)
        return Char.ofNat (codePoint first (rest.take count)) :: others
termination_by bytes => bytes.length
decreasing_by simp only [List.length_drop, List.length_cons]; omega

def decode (bytes : List UInt8) : Except DecodeError String :=
  (decodeAt 0 bytes).map String.ofList

def decodeWith (replacement : List UInt8 → List Char) (bytes : List UInt8) : List Char :=
  go bytes.length bytes
where
  go : Nat → List UInt8 → List Char
    | 0, _ => []
    | fuel + 1, bytes =>
      match decodeAt 0 bytes with
      | .ok s => s
      | .error e =>
        let fromFault := bytes.drop e.position
        match decodeAt 0 (bytes.take e.position) with
        | .ok s =>
          s ++ replacement (fromFault.take e.length) ++ go fuel (fromFault.drop e.length)
        | .error _ => []

end StepGlue.Text.Utf8
