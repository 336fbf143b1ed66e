import Mathlib.Tactic.SplitIfs
import StepGlue.Json.Printer
import StepGlue.Json.Reader
import StepGlue.Proofs.Text.StandIns

/-!
# Strings in JSON text

A written string is read back. Control characters are written as four hexadecimal digits, and no
such number is that of a surrogate.
-/

namespace StepGlue.Json

open StepGlue.Text
open Reader

theorem hexValue?_hexDigit : ∀ n < 16, hexValue? (hexDigit n) = some n := by
  decide

theorem unit?_hexDigits_append {n : Nat} (hn : n < 0x10000) (rest : List Char) :
    unit? (hexDigits 4 n ++ rest) = some n := by
  simp only [hexDigits, List.nil_append, List.cons_append, unit?, Option.bind_eq_bind,
    hexValue?_hexDigit _ (Nat.mod_lt _ (show 0 < 16 by decide)), Option.bind_some, pure,
    Option.some.injEq]
  omega

variable [StandIns]

theorem escape?_hexDigits {c : Char} (hc : c.toNat < 0x20) (rest : List Char) :
    escape? ('u' :: (hexDigits 4 c.toNat ++ rest)) = some (c, 5) := by
  have hhigh : ¬Surrogate.isHigh c.toNat := by
    rw [Surrogate.isHigh, Bool.and_eq_true, decide_eq_true_eq]
    omega
  rw [escape?, unit?_hexDigits_append (by omega)]
  simp only [Option.bind_eq_bind, Option.bind_some, if_neg hhigh, charOf?_toNat (c := c) (by omega)]
  rfl

/-- An escape is read as the character that it stands for. -/
theorem stringBody_escape {c : Char} (marks : List Char) {rest : List Char}
    (h : escape? (marks ++ rest) = some (c, marks.length)) :
    stringBody ('\\' :: (marks ++ rest)) = do
      let (cs, after) ← stringBody rest
      return (c :: cs, after) := by
  rw [stringBody, if_neg (by decide), if_pos rfl, h]
  simp only [List.drop_left]

theorem stringBody_escapedChar (c : Char) (rest : List Char) :
    stringBody (escapedChar c ++ rest) = do
      let (cs, after) ← stringBody rest
      return (c :: cs, after) := by
  rw [escapedChar]
  split_ifs with hquote hbackslash hlineFeed hreturn htab hformFeed hbackspace hcontrol
  · rw [hquote]
    exact stringBody_escape ['"'] rfl
  · rw [hbackslash]
    exact stringBody_escape ['\\'] rfl
  · rw [hlineFeed]
    exact stringBody_escape ['n'] rfl
  · rw [hreturn]
    exact stringBody_escape ['r'] rfl
  · rw [htab]
    exact stringBody_escape ['t'] rfl
  · rw [hformFeed]
    exact stringBody_escape ['f'] rfl
  · rw [hbackspace]
    exact stringBody_escape ['b'] rfl
  · exact stringBody_escape ('u' :: hexDigits 4 c.toNat) (escape?_hexDigits hcontrol rest)
  · rw [List.cons_append, List.nil_append, stringBody, if_neg hquote, if_neg hbackslash,
      if_neg hcontrol]

theorem stringBody_flatMap (s rest : List Char) :
    stringBody (s.flatMap escapedChar ++ '"' :: rest) = .ok (s, rest) := by
  induction s with
  | nil => rw [List.flatMap_nil, List.nil_append, stringBody, if_pos rfl]
  | cons c s ih =>
    rw [List.flatMap_cons, List.append_assoc, stringBody_escapedChar, ih]
    rfl

/-- A string is read from after its first quotation mark on. -/
theorem exists_stringText_append (s : String) (rest : List Char) :
    ∃ body, stringText s ++ rest = '"' :: body ∧ stringBody body = .ok (s.toList, rest) := by
  refine ⟨s.toList.flatMap escapedChar ++ '"' :: rest, ?_, stringBody_flatMap s.toList rest⟩
  simp only [stringText, List.cons_append, List.append_assoc, List.nil_append]

end StepGlue.Json
