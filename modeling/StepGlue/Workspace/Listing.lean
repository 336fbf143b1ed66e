import StepGlue.Text.Utf8

/-!
What a directory holds: files and directories by name, down to any depth.
-/

namespace StepGlue

/-- What a file holds: text, or bytes that are not the UTF-8 form of one. -/
inductive FileContent where
  | text (s : String)
  | binary (bytes : List UInt8) (error : Text.Utf8.DecodeError)
deriving DecidableEq, Repr

def FileContent.ofBytes (bytes : List UInt8) : FileContent :=
  match Text.Utf8.decode bytes with
  | .ok s => .text s
  | .error e => .binary bytes e

inductive Entry where
  | directory
  | file (content : FileContent)
deriving DecidableEq, Repr

inductive Listing where
  | empty
  | file (name : String) (content : FileContent) (others : Listing)
  | directory (name : String) (inside others : Listing)
deriving DecidableEq, Repr

namespace Listing

/-- The entry of a name, or the one that further names lead to from there. -/
def lookup? : Listing → String → List String → Option Entry
  | empty, _, _ => none
  | file name content others, wanted, further =>
    if wanted = name then (if further.isEmpty then some (.file content) else none)
    else lookup? others wanted further
  | directory name inside others, wanted, further =>
    if wanted = name then
      match further with
      | [] => some .directory
      | next :: rest => lookup? inside next rest
    else lookup? others wanted further

/-- An entry alone, inside directories of the names before it. -/
def single (name : String) (further : List String) (entry : Entry) : Listing :=
  match further with
  | [] => match entry with
    | .directory => directory name empty empty
    | .file content => file name content empty
  | next :: rest => directory name (single next rest entry) empty

def append : Listing → Listing → Listing
  | empty, more => more
  | file name content others, more => file name content (append others more)
  | directory name inside others, more => directory name inside (append others more)

/-- Puts an entry where names lead to, over what stands there; a directory keeps what it holds. -/
def put : Listing → String → List String → Entry → Listing
  | empty, wanted, further, entry => single wanted further entry
  | file name content others, wanted, further, entry =>
    if wanted = name then append (single wanted further entry) others
    else file name content (put others wanted further entry)
  | directory name inside others, wanted, further, entry =>
    if wanted = name then
      match further, entry with
      | [], .directory => directory name inside others
      | [], .file content => file name content others
      | next :: rest, entry => directory name (put inside next rest entry) others
    else directory name inside (put others wanted further entry)

theorem append_empty (l : Listing) : append l empty = l := by
  induction l with
  | empty => rfl
  | file _ _ _ ih => simp [append, ih]
  | directory _ _ _ _ ih => simp [append, ih]

theorem lookup?_append_single (name : String) (further : List String) (entry : Entry)
    (others : Listing) :
    (append (single name further entry) others).lookup? name further = some entry := by
  induction further generalizing name others with
  | nil => cases entry <;> simp [single, append, lookup?]
  | cons next rest ih =>
    have hinside := ih next empty
    rw [append_empty] at hinside
    simp [single, append, lookup?, hinside]

theorem lookup?_put_self (l : Listing) (name : String) (further : List String) (entry : Entry) :
    (l.put name further entry).lookup? name further = some entry := by
  induction l generalizing name further with
  | empty =>
    have hsingle := lookup?_append_single name further entry empty
    rwa [append_empty] at hsingle
  | file other content others ih =>
    by_cases h : name = other
    · simp [put, h, lookup?_append_single]
    · simp [put, h, lookup?, ih]
  | directory other inside others ihInside ihOthers =>
    by_cases h : name = other
    · subst h
      cases further with
      | nil => cases entry <;> simp [put, lookup?]
      | cons next rest => simp [put, lookup?, ihInside]
    · simp [put, h, lookup?, ihOthers]

/-- All entries with the names that lead to them, each directory before what it holds. -/
def toList (above : List String) : Listing → List (List String × Entry)
  | empty => []
  | file name content others => (above ++ [name], .file content) :: toList above others
  | directory name inside others =>
    (above ++ [name], .directory) :: (toList (above ++ [name]) inside ++ toList above others)

end Listing

end StepGlue
