import StepGlue.Proofs.Regex.Basic

/-!
# Reading patterns

A pattern is cut into tokens first, so that escapes are out of the way, and the tokens are read as
items then. Whatever the fragment does not have is refused: a metacharacter that stands alone, an
escape of a letter other than `d`, a repetition of a repetition, a group in a group or one that is
not closed.
-/

namespace StepGlue.Regex

/-- The characters that mean something other than themselves. -/
def isSpecial (c : Char) : Bool :=
  c ∈ ['\\', '.', '^', '$', '*', '+', '?', '{', '}', '[', ']', '|', '(', ')']

inductive Token where
  | character (cls : CharClass)
  | repetition (least : Nat) (preference : Preference)
  | opening
  | closing
  | start
  | finish
deriving DecidableEq, Repr

/-- The token of a character that follows no backslash. -/
def bare? : Char → Option Token
  | '.' => some (.character .any)
  | '*' => some (.repetition 0 .longestFirst)
  | '+' => some (.repetition 1 .longestFirst)
  | '(' => some .opening
  | ')' => some .closing
  | '^' => some .start
  | '$' => some .finish
  | c => if isSpecial c then none else some (.character (.only c))

/-- The token of a character that follows a backslash. -/
def escaped? (c : Char) : Option Token :=
  if c = 'd' then some (.character .digit)
  else if isSpecial c then some (.character (.only c))
  else none

def tokens? : List Char → Option (List Token)
  | [] => some []
  | '\\' :: c :: rest => (escaped? c).bind fun token => (tokens? rest).map (token :: ·)
  | '*' :: '?' :: rest => (tokens? rest).map (.repetition 0 .shortestFirst :: ·)
  | '+' :: '?' :: rest => (tokens? rest).map (.repetition 1 .shortestFirst :: ·)
  | c :: rest => (bare? c).bind fun token => (tokens? rest).map (token :: ·)

/-- Reads tokens as items; `opened` holds what stands in the group that is open, if one is. -/
def items? : (opened : Option (List Piece)) → List Token → Option (List Item)
  | none, [] => some []
  | none, .character cls :: .repetition least preference :: rest =>
    (items? none rest).map (.piece (.many cls least preference) :: ·)
  | none, .character cls :: rest => (items? none rest).map (.piece (.one cls) :: ·)
  | none, .start :: rest => (items? none rest).map (.start :: ·)
  | none, .finish :: rest => (items? none rest).map (.finish :: ·)
  | none, .opening :: rest => items? (some []) rest
  | some body, .character cls :: .repetition least preference :: rest =>
    items? (some (body ++ [.many cls least preference])) rest
  | some body, .character cls :: rest => items? (some (body ++ [.one cls])) rest
  | some body, .closing :: rest => (items? none rest).map (.group body :: ·)
  | _, _ => none

def read? (pattern : List Char) : Option (List Item) :=
  (tokens? pattern).bind (items? none)

example : read? "^(a.*?)\\.\\d+$".toList = some
    [.start, .group [.one (.only 'a'), .many .any 0 .shortestFirst], .piece (.one (.only '.')),
      .piece (.many .digit 1 .longestFirst), .finish] := by
  decide

example : read? "a**".toList = none ∧ read? "((a))".toList = none ∧ read? "(a".toList = none ∧
    read? "\\w".toList = none := by
  decide

/-- The items of literal text. -/
def literally (text : List Char) : List Item :=
  text.map fun c => .piece (.one (.only c))

@[simp]
theorem literally_nil : literally [] = [] := rfl

@[simp]
theorem literally_cons (c : Char) (text : List Char) :
    literally (c :: text) = .piece (.one (.only c)) :: literally text := rfl

theorem tokens?_escape {c : Char} {token : Token} (h : escaped? c = some token) (rest : List Char) :
    tokens? ('\\' :: c :: rest) = (tokens? rest).map (token :: ·) := by
  rw [tokens?, h, Option.bind_some]

theorem bare?_of_not_isSpecial {c : Char} (h : ¬isSpecial c) :
    bare? c = some (.character (.only c)) := by
  unfold bare?
  split <;> simp_all [isSpecial]

theorem tokens?_of_not_isSpecial {c : Char} (h : ¬isSpecial c) (rest : List Char) :
    tokens? (c :: rest) = (tokens? rest).map (.character (.only c) :: ·) := by
  rw [tokens?, bare?_of_not_isSpecial h, Option.bind_some]
  all_goals simp_all [isSpecial]

end StepGlue.Regex
