import StepGlue.Text.EscapedBytes

/-!
# Characters that stand in for nothing

Stand-ins are taken from the planes for private use, so every character below those stands for
itself.
-/

namespace StepGlue.Text

/-- No stand-ins, for texts without lone surrogates. -/
@[reducible] def noStandIns : StandIns :=
  .ofBlock? none

/-- Characters that are written out are looked at one after the other. -/
theorem toNat_lt_of_all {text : List Char} {n : Nat}
    (h : text.all (fun c => decide (c.toNat < n)) = true) : ∀ c ∈ text, c.toNat < n :=
  fun c hc => of_decide_eq_true (List.all_eq_true.mp h c hc)

variable [StandIns] {c : Char}

theorem surrogate?_eq_none (hc : c.toNat < 0xF0000) : StandIns.surrogate? c = none := by
  rw [StandIns.surrogate?]
  cases hfirst : StandIns.first? with
  | none => rfl
  | some first =>
    have hprivate := StandIns.isPrivate first hfirst
    simp only [Option.bind_eq_bind, Option.bind_some]
    rw [if_neg]
    simp only [Bool.and_eq_true, decide_eq_true_eq]
    omega

/-- The number of a character below the surrogates is that of the character. -/
theorem charOf?_toNat (hc : c.toNat < 0xD800) : StandIns.charOf? c.toNat = some c := by
  have hsurrogate : ¬Surrogate.isSurrogate c.toNat := by
    rw [Surrogate.isSurrogate_iff]
    omega
  have hvalid : c.toNat.isValidChar := c.valid
  rw [StandIns.charOf?, if_neg hsurrogate, if_pos hvalid, Char.ofNat_toNat]

theorem byte?_eq_none (hc : c.toNat < 0xF0000) : EscapedBytes.byte? c = none := by
  rw [EscapedBytes.byte?, surrogate?_eq_none hc]
  rfl

/-- The bytes of a text without stand-ins are those of its characters. -/
theorem bytes_eq_flatMap {text : String} (h : ∀ c ∈ text.toList, c.toNat < 0xF0000) :
    EscapedBytes.bytes text = text.toList.flatMap String.utf8EncodeChar := by
  have hchar : ∀ c ∈ text.toList, EscapedBytes.bytesOfChar c = String.utf8EncodeChar c := by
    intro c hc
    rw [EscapedBytes.bytesOfChar, byte?_eq_none (h c hc)]
  rw [EscapedBytes.bytes, List.flatMap_def, List.flatMap_def, List.map_congr_left hchar]

end StepGlue.Text
