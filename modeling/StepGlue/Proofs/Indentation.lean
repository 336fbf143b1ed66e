import Mathlib.Algebra.GroupWithZero.Nat
import StepGlue.Indentation
import StepGlue.Proofs.Except
import StepGlue.Proofs.Machine
import StepGlue.Proofs.Text.Lines

/-!
# What indenting leaves alone

Indenting changes the blanks in front of the lines and nothing else, so a text has the same trimmed
lines before and after. It fails only where a level stands too far from the margin, or where there
are more blanks than memory has room for.
-/

namespace StepGlue

namespace Indentation

open Text

variable {size : Int} {code out : String}

/-- The levels at which the lines of a text are to stand. -/
def levelsOf (code : String) : List Nat :=
  (levels 0 (splitOn '\n' code.toList)).map Prod.fst

def spaces (size : Int) (level : Nat) : Nat :=
  (level * size).toNat

/-- Whether the number of spaces before a line at a level is a machine integer. -/
def Counts (size : Int) (level : Nat) : Prop :=
  -0x8000000000000000 ≤ level * size ∧ level * size < 0x8000000000000000

instance (size : Int) (level : Nat) : Decidable (Counts size level) :=
  inferInstanceAs (Decidable (_ ∧ _))

theorem Counts.of_le {level lower : Nat} (h : Counts size level) (hle : lower ≤ level) :
    Counts size lower := by
  have hcast : (lower : Int) ≤ level := Int.ofNat_le.mpr hle
  rw [Counts] at h ⊢
  rcases Int.le_total 0 size with hsize | hsize
  · have hmul := Int.mul_le_mul_of_nonneg_right hcast hsize
    have hpos := Int.mul_nonneg (Int.natCast_nonneg lower) hsize
    omega
  · have hmul := Int.mul_le_mul_of_nonpos_right hcast hsize
    have hneg := Int.mul_nonpos_of_nonneg_of_nonpos (Int.natCast_nonneg lower) hsize
    omega

/-- Each level adds the same number of spaces, so only the sum of the levels matters. -/
theorem sum_spaces (size : Int) (levels : List Nat) :
    (levels.map (spaces size)).sum = levels.sum * size.toNat := by
  induction levels with
  | nil => simp
  | cons level levels ih =>
    have hspaces : spaces size level = level * size.toNat := by
      rw [spaces]
      rcases Int.le_total 0 size with hsize | hsize
      · exact Int.toNat_mul (Int.natCast_nonneg level) hsize
      · rw [Int.toNat_of_nonpos hsize, Nat.mul_zero, Int.toNat_of_nonpos
          (Int.mul_nonpos_of_nonneg_of_nonpos (Int.natCast_nonneg level) hsize)]
    rw [List.map_cons, List.sum_cons, List.sum_cons, Nat.add_mul, hspaces, ih]

def indented (size : Int) (line : Nat × List Char) : List Char :=
  List.replicate (spaces size line.1) ' ' ++ line.2

theorem width_eq_ok_iff {level here : Nat} :
    width size level = .ok here ↔ Counts size level ∧ here = spaces size level := by
  rw [width, Counts, spaces]
  split
  · simp only [reduceCtorEq, false_iff]
    omega
  · rw [Except.ok.injEq]
    omega

section Room

variable [Machine]

/-- Whether the spaces before lines at some levels can be made: each number of them is a machine
integer, and memory has room for all. -/
structure Fits (size : Int) (levels : List Nat) : Prop where
  counts : ∀ level ∈ levels, Counts size level
  hasRoom : Within Machine.blanks (levels.map (spaces size)).sum

theorem fits_cons_iff {level : Nat} {levels : List Nat} {used : Nat} :
    ((∀ l ∈ level :: levels, Counts size l) ∧
        Within Machine.blanks (used + ((level :: levels).map (spaces size)).sum)) ↔
      Counts size level ∧ (∀ l ∈ levels, Counts size l) ∧
        Within Machine.blanks (used + spaces size level + (levels.map (spaces size)).sum) := by
  rw [List.forall_mem_cons, List.map_cons, List.sum_cons, Nat.add_assoc, and_assoc]

theorem indent_eq_ok_iff {used : Nat} {lines : List (Nat × List Char)} {out : List (List Char)}
    (hused : Within Machine.blanks used) :
    indent size used lines = .ok out ↔
      ((∀ level ∈ lines.map Prod.fst, Counts size level) ∧
          Within Machine.blanks (used + ((lines.map Prod.fst).map (spaces size)).sum)) ∧
        out = lines.map (indented size) := by
  induction lines generalizing used out with
  | nil => simp [indent, hused, eq_comm]
  | cons line lines ih =>
    obtain ⟨level, line⟩ := line
    rw [indent, bind_eq_ok_iff, List.map_cons, fits_cons_iff, List.map_cons]
    constructor
    · rintro ⟨here, hwidth, h⟩
      obtain ⟨hcounts, rfl⟩ := width_eq_ok_iff.mp hwidth
      split at h
      · rename_i hroom
        obtain ⟨rest, hrest, h⟩ := bind_eq_ok_iff.mp h
        obtain ⟨hfits, rfl⟩ := (ih hroom).mp hrest
        exact ⟨⟨hcounts, hfits⟩, (Except.ok.inj h).symm⟩
      · cases h
    · rintro ⟨⟨hcounts, hfits⟩, rfl⟩
      have hroom := hfits.2.of_le (Nat.le_add_right _ _)
      refine ⟨_, width_eq_ok_iff.mpr ⟨hcounts, rfl⟩, ?_⟩
      rw [if_pos hroom, (ih hroom).mpr ⟨hfits, rfl⟩]
      rfl

/-- The text is put together again from its lines, each with the spaces of its level in front. -/
theorem format_eq_ok_iff : format size code = .ok out ↔ Fits size (levelsOf code) ∧
    out = String.ofList (['\n'].intercalate
      ((levels 0 (splitOn '\n' code.toList)).map (indented size))) := by
  have hlines : ∀ lines, indent size 0 (levels 0 (splitOn '\n' code.toList)) = .ok lines ↔
      Fits size (levelsOf code) ∧
        lines = (levels 0 (splitOn '\n' code.toList)).map (indented size) := by
    intro lines
    rw [indent_eq_ok_iff (within_zero _), Nat.zero_add, ← levelsOf]
    exact and_congr_left' ⟨fun h => ⟨h.1, h.2⟩, fun h => ⟨h.counts, h.hasRoom⟩⟩
  rw [format, bind_eq_ok_iff]
  constructor
  · rintro ⟨lines, hindent, hout⟩
    obtain ⟨hfits, rfl⟩ := (hlines lines).mp hindent
    exact ⟨hfits, (Except.ok.inj hout).symm⟩
  · rintro ⟨hfits, rfl⟩
    exact ⟨_, (hlines _).mpr ⟨hfits, rfl⟩, rfl⟩

theorem exists_format_iff : (∃ out, format size code = .ok out) ↔ Fits size (levelsOf code) := by
  simp only [format_eq_ok_iff]
  exact ⟨fun ⟨_, hfits, _⟩ => hfits, fun hfits => ⟨_, hfits, rfl⟩⟩

end Room

/-! ### Levels -/

/-- The level at which some lines leave the lines after them. -/
def levelAfter (level : Nat) : List (List Char) → Nat
  | [] => level
  | line :: rest =>
    let trimmed := trim line
    if trimmed.isEmpty then levelAfter level rest
    else
      let here := if closes trimmed then level - 1 else level
      levelAfter (if opens trimmed then here + 1 else here) rest

/-- Earlier lines tell on later ones by a single number. -/
theorem levels_append (level : Nat) (lines others : List (List Char)) :
    levels level (lines ++ others) =
      levels level lines ++ levels (levelAfter level lines) others := by
  induction lines generalizing level with
  | nil => rfl
  | cons line lines ih =>
    rw [List.cons_append, levels, levels, levelAfter]
    by_cases hblank : (trim line).isEmpty
    · rw [if_pos hblank, if_pos hblank, if_pos hblank, ih, List.cons_append]
    · simp only [if_neg hblank]
      rw [ih, List.cons_append]

theorem levelAfter_append (level : Nat) (lines others : List (List Char)) :
    levelAfter level (lines ++ others) = levelAfter (levelAfter level lines) others := by
  induction lines generalizing level with
  | nil => rfl
  | cons line lines ih =>
    rw [List.cons_append, levelAfter, levelAfter]
    by_cases hblank : (trim line).isEmpty
    · rw [if_pos hblank, if_pos hblank, ih]
    · simp only [if_neg hblank]
      rw [ih]

/-- No level is higher than the number of lines before it allows. -/
theorem fst_le_of_mem_levels {level : Nat} {lines : List (List Char)} {line : Nat × List Char}
    (h : line ∈ levels level lines) : line.1 ≤ level + lines.length := by
  induction lines generalizing level with
  | nil => exact absurd h (by simp [levels])
  | cons first lines ih =>
    rw [levels] at h
    rw [List.length_cons]
    by_cases hblank : (trim first).isEmpty
    · rw [if_pos hblank, List.mem_cons] at h
      rcases h with rfl | h
      · omega
      · have hle := ih h
        omega
    · simp only [if_neg hblank, List.mem_cons] at h
      rcases h with rfl | h
      · simp only
        split <;> omega
      · have hle := ih h
        split at hle <;> split at hle <;> omega

theorem le_length_of_mem_levelsOf {level : Nat} (h : level ∈ levelsOf code) :
    level ≤ (splitOn '\n' code.toList).length := by
  obtain ⟨line, hline, rfl⟩ := List.mem_map.mp h
  have hle := fst_le_of_mem_levels hline
  omega

/-- The line after one that opens a block, and after a blank line, stands above the margin. -/
theorem exists_one_le_of_opens {before after : List (List Char)} {line next : List Char}
    (hopens : opens (trim line)) (hcloses : closes (trim line) = false) (hnext : trim next ≠ [])
    (hnextCloses : closes (trim next) = false) :
    ∃ place ∈ levels 0 (before ++ line :: [] :: next :: after), 1 ≤ place.1 := by
  have hlevels := levels_append 0 before (line :: [] :: next :: after)
  generalize levelAfter 0 before = level at hlevels
  have hline : ¬(trim line).isEmpty := by
    intro hempty
    rw [List.isEmpty_iff.mp hempty] at hopens
    exact absurd hopens (by decide)
  have hblank : ¬(trim next).isEmpty := by simpa using hnext
  have hplaces : (level + 1, trim next) ∈ levels level (line :: [] :: next :: after) := by
    simp only [levels, if_neg hline, if_neg hblank, hopens, hcloses, hnextCloses, trim_nil]
    simp
  refine ⟨(level + 1, trim next), ?_, Nat.le_add_left 1 level⟩
  rw [hlevels]
  exact List.mem_append_right _ hplaces

/-! ### Trimmed lines -/

def trimmedLines (s : List Char) : List (List Char) :=
  (splitOn '\n' s).map trim

theorem map_snd_levels (level : Nat) (lines : List (List Char)) :
    (levels level lines).map Prod.snd = lines.map trim := by
  induction lines generalizing level with
  | nil => rfl
  | cons line lines ih =>
    rw [levels]
    by_cases hblank : (trim line).isEmpty
    · rw [if_pos hblank, List.map_cons, ih, List.map_cons, List.isEmpty_iff.mp hblank]
    · rw [if_neg hblank, List.map_cons, ih, List.map_cons]

theorem trim_indented (line : Nat × List Char) : trim (indented size line) = trim line.2 :=
  trim_replicate_append _ _

theorem newline_not_mem_indented {line : Nat × List Char} (h : '\n' ∉ line.2) :
    '\n' ∉ indented size line := by
  rw [indented, List.mem_append, not_or]
  refine ⟨fun hmem => ?_, h⟩
  exact absurd (List.eq_of_mem_replicate hmem) (by decide)

variable [Machine]

/-- The lines that come out are the lines that went in, each at its level. -/
theorem splitOn_format (h : format size code = .ok out) :
    splitOn '\n' out.toList = (levels 0 (splitOn '\n' code.toList)).map (indented size) := by
  obtain ⟨-, rfl⟩ := format_eq_ok_iff.mp h
  have hsnd := map_snd_levels 0 (splitOn '\n' code.toList)
  generalize hlines : levels 0 (splitOn '\n' code.toList) = lines at hsnd
  have hne : lines.map (indented size) ≠ [] := by
    have hcode := splitOn_ne_nil '\n' code.toList
    rw [ne_eq, List.map_eq_nil_iff]
    rintro rfl
    exact hcode (List.map_eq_nil_iff.mp hsnd.symm)
  have hfeeds : ∀ line ∈ lines.map (indented size), '\n' ∉ line := by
    intro line hline
    obtain ⟨level, hmem, rfl⟩ := List.mem_map.mp hline
    have htrimmed : level.2 ∈ (splitOn '\n' code.toList).map trim :=
      hsnd ▸ List.mem_map.mpr ⟨level, hmem, rfl⟩
    obtain ⟨piece, hpiece, htrim⟩ := List.mem_map.mp htrimmed
    apply newline_not_mem_indented
    intro hfeed
    exact not_mem_of_mem_splitOn hpiece (mem_of_mem_trim (htrim ▸ hfeed))
  rw [String.toList_ofList, splitOn_eq, List.splitOn_intercalate '\n' hfeeds hne]

theorem trimmedLines_format (h : format size code = .ok out) :
    trimmedLines out.toList = trimmedLines code.toList := by
  calc trimmedLines out.toList
      = ((levels 0 (splitOn '\n' code.toList)).map (indented size)).map trim := by
        rw [trimmedLines, splitOn_format h]
    _ = ((levels 0 (splitOn '\n' code.toList)).map Prod.snd).map trim := by
        rw [List.map_map, List.map_map]
        exact List.map_congr_left fun line _ => trim_indented line
    _ = trimmedLines code.toList := by
        rw [map_snd_levels, List.map_map, trimmedLines]
        exact List.map_congr_left fun line _ => trim_trim line

end Indentation

end StepGlue
