import Mathlib.Order.MinMax
import StepGlue.Proofs.Text.StandIns
import StepGlue.Machine

/-!
# What there is room for

What is within a limit stays so when it gets less. A level more takes one off the limit, and what
can be copied can be read and written with another level around it.
-/

namespace StepGlue

section Within

variable {limit : Option Nat} {m n : Nat}

theorem within_none (n : Nat) : Within none n :=
  nofun

theorem within_some_iff : Within (some m) n ↔ n ≤ m := by
  simp [Within]

theorem Within.of_le (h : Within limit n) (hle : m ≤ n) : Within limit m :=
  fun room hroom => hle.trans (h room hroom)

theorem within_zero (limit : Option Nat) : Within limit 0 :=
  fun _ _ => Nat.zero_le _

theorem within_max_iff : Within limit (max m n) ↔ Within limit m ∧ Within limit n := by
  cases limit with
  | none => simp [within_none]
  | some room => simp only [within_some_iff, max_le_iff]

/-- A level more needs room for itself, and takes one off the limit. -/
theorem within_succ_iff :
    Within limit (n + 1) ↔ limit ≠ some 0 ∧ Within (limit.map (· - 1)) n := by
  cases limit with
  | none => simp [within_none]
  | some room =>
    simp only [Option.map_some, within_some_iff, ne_eq, Option.some.injEq]
    omega

end Within

namespace Machine

section Limits

variable [Machine] {n : Nat}

theorem within_copied_three : Within (limit Nesting.copied) 3 := by
  intro room hroom
  obtain ⟨nesting, -, rfl⟩ := Option.map_eq_some_iff.mp hroom
  exact nesting.three_le_copied

theorem within_copied_two : Within (limit Nesting.copied) 2 :=
  within_copied_three.of_le (by decide)

theorem within_read_of_copied (h : Within (limit Nesting.copied) n) :
    Within (limit Nesting.read) (n + 1) := by
  intro room hroom
  obtain ⟨nesting, hnesting, rfl⟩ := Option.map_eq_some_iff.mp hroom
  exact (Nat.succ_le_succ (h _ (Option.mem_map_of_mem _ hnesting))).trans nesting.copied_lt_read

theorem within_written_of_copied (h : Within (limit Nesting.copied) n) :
    Within (limit Nesting.written) (n + 1) := by
  intro room hroom
  obtain ⟨nesting, hnesting, rfl⟩ := Option.map_eq_some_iff.mp hroom
  exact (Nat.succ_le_succ (h _ (Option.mem_map_of_mem _ hnesting))).trans nesting.copied_lt_written

theorem within_read_two : Within (limit Nesting.read) 2 :=
  (within_read_of_copied within_copied_two).of_le (by decide)

theorem within_written_two : Within (limit Nesting.written) 2 :=
  (within_written_of_copied within_copied_two).of_le (by decide)

theorem within_of_limit_eq_none {part : Nesting → Nat} (h : limit part = none)
    (part' : Nesting → Nat) (n : Nat) : Within (limit part') n := by
  rw [limit, Option.map_eq_none_iff.mp h]
  exact within_none n

end Limits

/-- A machine with room for everything. -/
@[reducible] def unbounded (standIns : Text.StandIns) : Machine where
  toStandIns := standIns
  nesting := none
  blanks := none
  newDirectories := 4096

/-- A machine with room for everything that reads no lone surrogates. -/
@[reducible] def plain : Machine :=
  unbounded Text.noStandIns

/-- A machine with a stack of a few levels. -/
@[reducible] def shallow : Machine where
  toStandIns := Text.noStandIns
  nesting := some ⟨5, 5, 3, 5, by decide, by decide, by decide⟩
  blanks := none
  newDirectories := 4096

end Machine

end StepGlue
