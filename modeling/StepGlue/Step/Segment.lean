import StepGlue.Step.Parameter
import StepGlue.Text.LetterCase
import StepGlue.Text.Lines

/-!
A step text cut into literal text and slots. Quoted values are found first, placeholders in what is
left between them, and numbers in what is left after that, so slots never overlap.
-/

namespace StepGlue

inductive Segment where
  | literal (text : List Char)
  | slot (kind : Parameter.Kind) (value : List Char)
deriving DecidableEq, Repr

namespace Segment

open StepGlue.Text Parameter

/-- Puts literal text in front, joined to a literal that is there already. -/
def consLiteral (text : List Char) : List Segment → List Segment
  | literal more :: rest => literal (text ++ more) :: rest
  | segments => literal text :: segments

/-- The text before the first `closing` character, and the text after it. -/
def cut? (closing : Char) : List Char → Option (List Char × List Char)
  | [] => none
  | c :: rest =>
    if c = closing then some ([], rest)
    else (cut? closing rest).map fun (before, after) => (c :: before, after)

theorem cut?_eq_some_iff {closing : Char} {s before after : List Char} :
    cut? closing s = some (before, after) ↔
      s = before ++ closing :: after ∧ closing ∉ before := by
  induction s generalizing before with
  | nil => simp [cut?]
  | cons c rest ih =>
    by_cases h : c = closing
    · subst h
      cases before with
      | nil => simp [cut?, eq_comm]
      | cons b bs => simp [cut?]; grind
    · cases before with
      | nil => simp [cut?, h]
      | cons b bs =>
        simp only [cut?, h, if_false, Option.map_eq_some_iff, Prod.exists, Prod.mk.injEq,
          List.cons.injEq, List.cons_append, List.mem_cons, not_or]
        constructor
        · rintro ⟨x, y, hxy, ⟨rfl, rfl⟩, rfl⟩
          have := ih.mp hxy
          exact ⟨⟨rfl, this.1⟩, Ne.symm h, this.2⟩
        · rintro ⟨⟨rfl, hs⟩, -, hb⟩
          exact ⟨bs, after, ih.mpr ⟨hs, hb⟩, ⟨rfl, rfl⟩, rfl⟩

/-- Cuts out every stretch from an `opening` character to the next `closing` one. -/
def delimited (kind : Kind) (opening closing : Char) : List Char → List Segment
  | [] => []
  | c :: rest =>
    if c = opening then
      match _cut : cut? closing rest with
      | some (value, after) => slot kind value :: delimited kind opening closing after
      | none => [literal (c :: rest)]
    else consLiteral [c] (delimited kind opening closing rest)
termination_by s => s.length
decreasing_by
  · have := (cut?_eq_some_iff.mp _cut).1
    subst this
    simp only [List.length_cons, List.length_append]
    omega
  · simp

/-- The characters of a word, for the purpose of setting a number apart. -/
def isWordChar (c : Char) : Bool :=
  c.isAlphanum || c == '_'

def numbers : List Char → List Segment
  | [] => []
  | c :: rest =>
    if isWordChar c then
      let word := c :: rest.takeWhile isWordChar
      let others := numbers (rest.dropWhile isWordChar)
      if word.all Char.isDigit then slot .number word :: others else consLiteral word others
    else consLiteral [c] (numbers rest)
termination_by s => s.length
decreasing_by
  · have := (List.dropWhile_suffix (p := isWordChar) (l := rest)).length_le
    simp only [List.length_cons]
    omega
  · simp

def refine (search : List Char → List Segment) : Segment → List Segment
  | literal text => search text
  | slot kind value => [slot kind value]

def scan (text : List Char) : List Segment :=
  ((delimited .quoted '"' '"' text).flatMap (refine (delimited .placeholder '<' '>'))).flatMap
    (refine numbers)

/-- The name that the content of a placeholder spells: small letters, words joined by
underscores. -/
def spelledName (content : List Char) : List Char :=
  lower (['_'].intercalate (words content))

/-- The name of the `ordinal`-th slot of a kind. -/
def slotName (kind : Kind) (ordinal : Nat) (value : List Char) : String :=
  let spelled := if kind = .placeholder then spelledName value else []
  if spelled.isEmpty then kind.countedName ++ toString ordinal else String.ofList spelled

/-- The parameters of the slots that follow `seen`, the kinds of the slots before. -/
def parametersAfter (seen : List Kind) : List Segment → List Parameter
  | [] => []
  | literal _ :: rest => parametersAfter seen rest
  | slot kind value :: rest =>
    { kind, name := slotName kind (seen.count kind + 1) value, value := String.ofList value } ::
      parametersAfter (kind :: seen) rest

/-- The parameters of all slots; names are counted out for each kind on its own. -/
def parameters (segments : List Segment) : List Parameter :=
  parametersAfter [] segments

end Segment

end StepGlue
