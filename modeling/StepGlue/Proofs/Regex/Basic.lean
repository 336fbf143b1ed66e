import Mathlib.Data.List.Basic

/-!
# Regular expressions of match patterns

The fragment that match patterns are written in: single characters, repetitions of one kind of
character, capture groups that do not nest, and anchors. `Matches` says in how many ways an
expression matches at all; which of them an engine finds first is a question for `Search`.
-/

namespace StepGlue.Regex

/-- What an engine takes for a digit. Engines agree on ASCII, and not on the digits of other
scripts. -/
structure Digits where
  admits : Char → Bool
  ascii : ∀ c : Char, c.toNat < 0x80 → admits c = c.isDigit

/-- The ten digits and no others. -/
def Digits.decimal : Digits where
  admits := Char.isDigit
  ascii _ _ := rfl

theorem Digits.admits_of_isDigit (digits : Digits) {c : Char} (h : c.isDigit) :
    digits.admits c := by
  have hascii : c.toNat < 0x80 := by
    simp only [Char.isDigit, Bool.and_eq_true, decide_eq_true_eq, UInt32.le_iff_toNat_le] at h
    have hle : c.toNat ≤ 57 := h.2
    omega
  rw [digits.ascii c hascii]
  exact h

theorem Digits.not_admits_of_ascii (digits : Digits) {c : Char} (hascii : c.toNat < 0x80)
    (h : ¬c.isDigit) : ¬digits.admits c := by
  rwa [digits.ascii c hascii]

/-- The characters that a position of a pattern admits. -/
inductive CharClass where
  | only (c : Char)
  /-- Any character but a line feed. -/
  | any
  | digit
deriving DecidableEq, Repr

def CharClass.admits (digits : Digits) : CharClass → Char → Bool
  | only c, d => d == c
  | any, d => d != '\n'
  | digit, d => digits.admits d

/-- The order in which a repetition tries its lengths. -/
inductive Preference where
  | longestFirst
  | shortestFirst
deriving DecidableEq, Repr

inductive Piece where
  | one (cls : CharClass)
  | many (cls : CharClass) (least : Nat) (preference : Preference)
deriving DecidableEq, Repr

inductive Item where
  | piece (piece : Piece)
  | group (body : List Piece)
  | start
  | finish
deriving DecidableEq, Repr

variable (digits : Digits)

def Piece.Matches : Piece → List Char → Prop
  | one cls, text => ∃ c, text = [c] ∧ cls.admits digits c
  | many cls least _, text => least ≤ text.length ∧ ∀ c ∈ text, cls.admits digits c

def PiecesMatch : List Piece → List Char → Prop
  | [], text => text = []
  | piece :: pieces, text =>
    ∃ first others, text = first ++ others ∧ piece.Matches digits first ∧ PiecesMatch pieces others

@[simp]
theorem piecesMatch_singleton {piece : Piece} {text : List Char} :
    PiecesMatch digits [piece] text ↔ piece.Matches digits text := by
  simp [PiecesMatch]

/-- A way to match `items` at the start of the text after `before`: what the groups capture, in
their order, and the text that is left. An end anchor also admits a last line feed after it. -/
inductive Matches : (before : List Char) → List Item → (text : List Char) →
    (captures : List (List Char)) → (rest : List Char) → Prop
  | nil {before rest} : Matches before [] rest [] rest
  | piece {before piece items text text' captures rest} (hpiece : piece.Matches digits text)
      (hitems : Matches (before ++ text) items text' captures rest) :
      Matches before (.piece piece :: items) (text ++ text') captures rest
  | group {before body items text text' captures rest} (hbody : PiecesMatch digits body text)
      (hitems : Matches (before ++ text) items text' captures rest) :
      Matches before (.group body :: items) (text ++ text') (text :: captures) rest
  | start {items text captures rest} (hitems : Matches [] items text captures rest) :
      Matches [] (.start :: items) text captures rest
  | finish {before items text captures rest} (hend : text = [] ∨ text = ['\n'])
      (hitems : Matches before items text captures rest) :
      Matches before (.finish :: items) text captures rest

section Matches

variable {digits} {before text rest : List Char} {items : List Item} {captures : List (List Char)}

@[simp]
theorem matches_nil_iff : Matches digits before [] text captures rest ↔
    captures = [] ∧ rest = text := by
  constructor
  · intro h
    cases h
    exact ⟨rfl, rfl⟩
  · rintro ⟨rfl, rfl⟩
    exact .nil

theorem matches_piece_iff {piece : Piece} :
    Matches digits before (.piece piece :: items) text captures rest ↔
      ∃ first others, text = first ++ others ∧ piece.Matches digits first ∧
        Matches digits (before ++ first) items others captures rest := by
  constructor
  · rintro (_ | ⟨hpiece, hitems⟩)
    exact ⟨_, _, rfl, hpiece, hitems⟩
  · rintro ⟨first, others, rfl, hpiece, hitems⟩
    exact .piece hpiece hitems

theorem matches_group_iff {body : List Piece} :
    Matches digits before (.group body :: items) text captures rest ↔
      ∃ first others captures', text = first ++ others ∧ captures = first :: captures' ∧
        PiecesMatch digits body first ∧
        Matches digits (before ++ first) items others captures' rest := by
  constructor
  · intro h
    cases h with
    | group hbody hitems => exact ⟨_, _, _, rfl, rfl, hbody, hitems⟩
  · rintro ⟨first, others, captures', rfl, rfl, hbody, hitems⟩
    exact .group hbody hitems

theorem matches_start_iff : Matches digits before (.start :: items) text captures rest ↔
    before = [] ∧ Matches digits [] items text captures rest := by
  constructor
  · intro h
    cases h with
    | start hitems => exact ⟨rfl, hitems⟩
  · rintro ⟨rfl, hitems⟩
    exact .start hitems

theorem matches_finish_iff : Matches digits before (.finish :: items) text captures rest ↔
    (text = [] ∨ text = ['\n']) ∧ Matches digits before items text captures rest := by
  constructor
  · intro h
    cases h with
    | finish hend hitems => exact ⟨hend, hitems⟩
  · rintro ⟨hend, hitems⟩
    exact .finish hend hitems

end Matches

/-- A capture group with the items next to it. -/
structure Site where
  before : Option Item
  body : List Piece
  after : Option Item
deriving DecidableEq, Repr

/-- The capture groups of some items that follow `before`, in reading order. -/
def sitesAfter (before : Option Item) : List Item → List Site
  | [] => []
  | .group body :: rest => ⟨before, body, rest.head?⟩ :: sitesAfter (some (.group body)) rest
  | item :: rest => sitesAfter (some item) rest

/-- The capture groups of an expression, in reading order. -/
def sites (items : List Item) : List Site :=
  sitesAfter none items

end StepGlue.Regex
