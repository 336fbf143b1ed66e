import StepGlue.Text.Lines

/-!
The keywords that open a step, and the category that each belongs to.
-/

namespace StepGlue

/-- What a step does in its scenario. -/
inductive Category where
  | setup
  | action
  | outcome
deriving DecidableEq, Repr

namespace Category

def all : List Category := [setup, action, outcome]

def word : Category → String
  | setup => "Given"
  | action => "When"
  | outcome => "Then"

def ofWord? (word : String) : Option Category :=
  all.find? fun category => category.word == word

end Category

inductive Keyword where
  | given
  | when
  | then_
  | and
  | but
deriving DecidableEq, Repr

namespace Keyword

open StepGlue.Text

def all : List Keyword := [given, when, then_, and, but]

def word : Keyword → String
  | given => "Given"
  | when => "When"
  | then_ => "Then"
  | and => "And"
  | but => "But"

/-- `And` and `But` open a setup step, whatever step they follow. -/
def category : Keyword → Category
  | given | and | but => .setup
  | when => .action
  | then_ => .outcome

inductive Error where
  | empty
  | unsupported (text : String)
deriving DecidableEq, Repr

def Error.message : Error → String
  | empty => "Keyword cannot be empty"
  | unsupported text => "Unsupported step keyword: " ++ text

def ofText (text : String) : Except Error Keyword :=
  let trimmed := trim text.toList
  if trimmed.isEmpty then .error .empty
  else match all.find? fun keyword => keyword.word.toList == trimmed with
    | some keyword => .ok keyword
    | none => .error (.unsupported text)

/-- The keyword that a line starts with, and the rest of the line. -/
def opening? (line : List Char) : Option (Keyword × List Char) :=
  all.findSome? fun keyword => (afterPrefix? keyword.word.toList line).map (keyword, ·)

/-- The keyword that a line starts with, and what follows it and its blanks; at least one blank
must stand between them. -/
def split? (line : List Char) : Option (Keyword × List Char) :=
  match opening? line with
  | some (keyword, c :: rest) => if isBlank c then some (keyword, trimLeft rest) else none
  | _ => none

end Keyword

end StepGlue
