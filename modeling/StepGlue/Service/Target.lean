import StepGlue.Json.Reader
import StepGlue.Text.Lines
import StepGlue.Text.Quoted
import StepGlue.Text.Utf8

/-!
Request targets: the path that a target names, the percent escapes in it, and the path that a client
asks for when it is sent on.
-/

namespace StepGlue.Target

open StepGlue.Text

/-- The bytes of an ASCII text whose percent escapes are resolved; other characters stay. -/
def unescape : List Char → List UInt8
  | [] => []
  | '%' :: a :: b :: rest =>
    match Json.Reader.hexValue? a, Json.Reader.hexValue? b with
    | some a, some b => (a * 16 + b).toUInt8 :: unescape rest
    | _, _ => '%'.toNat.toUInt8 :: unescape (a :: b :: rest)
  | c :: rest => c.toNat.toUInt8 :: unescape rest

/-- Decodes UTF-8 with a replacement character for every malformed sequence. -/
def decodeLossily (bytes : List UInt8) : List Char :=
  Utf8.decodeWith (fun _ => ['\ufffd']) bytes

/-- Resolves the percent escapes in the ASCII stretches of a text. -/
def resolved (s : List Char) : List Char :=
  go s.length s
where
  go : Nat → List Char → List Char
    | 0, _ | _, [] => []
    | fuel + 1, s =>
      let ascii := s.takeWhile fun c => c.toNat < 0x80
      match s.drop ascii.length with
      | [] => decodeLossily (unescape ascii)
      | c :: rest => decodeLossily (unescape ascii) ++ c :: go fuel rest

/-- Drops single dots from the parts of a path, and double dots with the part before them. -/
def withoutDots (parts : List (List Char)) : List (List Char) :=
  parts.foldl
    (fun kept part =>
      if part = ['.'] then kept
      else if part = ['.', '.'] then (if kept = [[]] then kept else kept.dropLast)
      else kept ++ [part])
    []

inductive Error where
  | controlCharacter (c : Char) (position : Nat)
  /-- A path that would be read as something else. -/
  | startsWith (text : String)
deriving DecidableEq, Repr

def Error.message : Error → String
  | .controlCharacter c position =>
    "Invalid non-printable ASCII character in URL, " ++ quoted (String.ofList [c]) ++
      " at position " ++ toString position ++ "."
  | .startsWith text => "Relative URLs cannot have a path starting with '" ++ text ++ "'"

def isControl (c : Char) : Bool :=
  c.toNat < 0x20 || c.toNat == 0x7F

def isSchemeChar (c : Char) : Bool :=
  c.isAlphanum || c == '+' || c == '.' || c == '-'

/-- The scheme before the colon at the front of a target, and what follows. -/
def splitScheme (s : List Char) : List Char × List Char :=
  let name := if s.head?.any Char.isAlpha then s.takeWhile isSchemeChar else []
  match s.drop name.length with
  | ':' :: rest => (name, rest)
  | _ => ([], s)

/-- The host after two slashes at the front of a text, and what follows. -/
def splitHost : List Char → List Char × List Char
  | '/' :: '/' :: rest =>
    let host := rest.takeWhile fun c => c != '/' && c != '?' && c != '#'
    (host, rest.drop host.length)
  | s => ([], s)

def normalized (path : List Char) : List Char :=
  ['/'].intercalate (withoutDots (splitOn '/' path))

/-- The path that a target names, without query and fragment. A target with scheme and host stands
for itself, and another is taken from the top of the service. -/
def path (target : String) : Except Error (List Char) := do
  let s := target.toList
  match s.dropWhile (fun c => !isControl c) with
  | c :: _ => throw (.controlCharacter c (s.takeWhile fun c => !isControl c).length)
  | [] => pure ()
  let (scheme, rest) := splitScheme s
  let (host, rest) := splitHost rest
  let path := rest.takeWhile fun c => c != '?' && c != '#'
  if scheme.isEmpty && host.isEmpty then
    if ['/', '/'].isPrefixOf path then throw (.startsWith "//")
    if path.head? = some ':' then throw (.startsWith ":")
    return normalized ('/' :: path.dropWhile (· == '/'))
  else if scheme.isEmpty || host.isEmpty then
    return normalized ('/' :: (normalized path).dropWhile (· == '/'))
  else return normalized (if path.isEmpty then ['/'] else path)

/-- The path that the service sees of a path: the client resolves its escapes, and the service does
so again. -/
def seen (path : List Char) : List Char :=
  resolved (resolved path)

/-- The path that the service sees when it sends a client on to a path. -/
def sentOn (path : List Char) : List Char :=
  seen (normalized path)

end StepGlue.Target
