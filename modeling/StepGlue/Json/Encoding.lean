import StepGlue.Text.Units
import StepGlue.Text.Utf8

/-!
The encoding of JSON bytes, told by the zeros among the first of them.
-/

namespace StepGlue.Json

open StepGlue.Text

inductive Encoding where
  | utf8
  | utf16 (order : Units.ByteOrder)
  | utf32 (order : Units.ByteOrder)
deriving DecidableEq, Repr

namespace Encoding

def ofBytes : List UInt8 → Encoding
  | [a, b] => if a = 0 then utf16 .bigEndian else if b = 0 then utf16 .littleEndian else utf8
  | a :: b :: c :: d :: _ =>
    if a = 0 then (if b = 0 then utf32 .bigEndian else utf16 .bigEndian)
    else if b = 0 then (if c = 0 && d = 0 then utf32 .littleEndian else utf16 .littleEndian)
    else utf8
  | _ => utf8

def withoutMark : List UInt8 → List UInt8
  | 0xEF :: 0xBB :: 0xBF :: rest => rest
  | bytes => bytes

variable [StandIns]

def decode? (encoding : Encoding) (bytes : List UInt8) : Option String :=
  match encoding with
  | utf8 => (Utf8.decode (withoutMark bytes)).toOption
  | utf16 order => Units.decode16? order bytes
  | utf32 order => Units.decode32? order bytes

end Encoding

variable [StandIns]

/-- The text that bytes stand for in the encoding that they show. -/
def textOfBytes? (bytes : List UInt8) : Option String :=
  (Encoding.ofBytes bytes).decode? bytes

end StepGlue.Json
