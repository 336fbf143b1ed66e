import StepGlue.Text.CaseTable

/-!
Small and capital forms of whole texts. One letter may become several, and a capital sigma is
written as the closing sigma at the end of a word.
-/

namespace StepGlue.Text

def findRun (runs : List CaseRun) (c : Char) : Char :=
  ((runs.findSome? fun run => run.map? c.toNat).map Char.ofNat).getD c

/-- The small form of a character, outside any word. -/
def lowerChar (c : Char) : List Char :=
  if c.toNat < 0x80 then [c.toLower]
  else if c = 'İ' then ['i', '\u0307']
  else [findRun lowerRuns c]

def upperChar (c : Char) : List Char :=
  if c.toNat < 0x80 then [c.toUpper]
  else match upperExpansions.lookup c.toNat with
    | some codes => codes.map Char.ofNat
    | none => [findRun upperRuns c]

/-- Whether the first character that is not passed over has case. -/
def meetsCased (s : List Char) : Bool :=
  match s.dropWhile fun c => inIntervals caseIgnorableIntervals c.toNat with
  | [] => false
  | c :: _ => inIntervals casedIntervals c.toNat

/-- The small form of a text that follows `before`, the nearest character first. -/
def lowerAfter (before : List Char) : List Char → List Char
  | [] => []
  | c :: rest =>
    (if c = 'Σ' then [if meetsCased before && !meetsCased rest then 'ς' else 'σ']
      else lowerChar c) ++ lowerAfter (c :: before) rest

def lower (s : List Char) : List Char :=
  lowerAfter [] s

def upper (s : List Char) : List Char :=
  s.flatMap upperChar

end StepGlue.Text
