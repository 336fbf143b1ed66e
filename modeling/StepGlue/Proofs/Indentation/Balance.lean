import StepGlue.Proofs.Indentation

/-!
# Levels by the balance of braces

A closing brace too many does not take the level below the margin, it moves the margin. So the level
of a line is the balance of the braces up to it, less the lowest balance so far if that is negative.
The levels depend on nothing but the trimmed lines, which indenting leaves alone.
-/

namespace StepGlue.Indentation

open Text

variable {lines others : List (List Char)} {line : List Char} {i : Nat} {size : Int}
  {code other out : String}

/-- The number of blocks that the lines before line `i` open, less those that the lines up to it
close. -/
def balance (lines : List (List Char)) (i : Nat) : Int :=
  (lines.take i).countP (fun line => opens (trim line)) -
    (lines.take (i + 1)).countP fun line => closes (trim line)

def isSolid (line : List Char) : Bool :=
  !(trim line).isEmpty

/-- The least of zero and the balances at the lines before line `i` that are not blank. -/
def lowest (lines : List (List Char)) (i : Nat) : Int :=
  (((List.range i).filter fun k => lines[k]?.any isSolid).map (balance lines)).foldl min 0

/-- How far above the lowest balance up to line `i` the balance at line `i` is. -/
def height (lines : List (List Char)) (i : Nat) : Int :=
  balance lines i - lowest lines (i + 1)

/-- The number of spaces before line `i`: a negative size stands for none, and a blank line has
none. -/
def margin (size : Int) (lines : List (List Char)) (i : Nat) (line : List Char) : Nat :=
  if isSolid line then (max 0 size * height lines i).toNat else 0

/-- Line `i` where it belongs. -/
def placed (size : Int) (lines : List (List Char)) (i : Nat) (line : List Char) : List Char :=
  List.replicate (margin size lines i line) ' ' ++ trim line

/-! ### The level that the lines before a line leave behind -/

/-- The number of blocks that the lines before line `i` open, less those that they close. -/
def net (lines : List (List Char)) (i : Nat) : Int :=
  (lines.take i).countP (fun line => opens (trim line)) -
    (lines.take i).countP fun line => closes (trim line)

theorem take_succ_of_getElem? (h : lines[i]? = some line) :
    lines.take (i + 1) = lines.take i ++ [line] := by
  rw [List.take_add_one, h, Option.toList_some]

theorem balance_eq (h : lines[i]? = some line) :
    balance lines i = net lines i - if closes (trim line) then 1 else 0 := by
  rw [balance, take_succ_of_getElem? h, List.countP_append, List.countP_singleton, net]
  split <;> omega

theorem net_succ (h : lines[i]? = some line) :
    net lines (i + 1) = balance lines i + if opens (trim line) then 1 else 0 := by
  rw [net, balance, take_succ_of_getElem? h, List.countP_append, List.countP_singleton]
  split <;> omega

theorem lowest_succ (i : Nat) : lowest lines (i + 1) =
    if lines[i]?.any isSolid then min (lowest lines i) (balance lines i) else lowest lines i := by
  rw [lowest, List.range_succ, List.filter_append, List.map_append, List.foldl_append, ← lowest]
  by_cases hsolid : lines[i]?.any isSolid <;> simp [hsolid]

theorem lowest_succ_of_isSolid (h : lines[i]? = some line) (hsolid : isSolid line) :
    lowest lines (i + 1) = min (lowest lines i) (balance lines i) := by
  rw [lowest_succ, h, Option.any_some, if_pos hsolid]

theorem height_nonneg (h : lines[i]? = some line) (hsolid : isSolid line) : 0 ≤ height lines i := by
  rw [height, lowest_succ_of_isSolid h hsolid]
  omega

/-- A line takes the level that it finds to the level where it stands. -/
theorem level_eq_height {level : Nat} (h : lines[i]? = some line) (hsolid : isSolid line)
    (hlevel : (level : Int) = net lines i - lowest lines i) :
    ((if closes (trim line) then level - 1 else level : Nat) : Int) = height lines i := by
  rw [height, lowest_succ_of_isSolid h hsolid, balance_eq h]
  split <;> omega

/-- The level follows the braces, moved up by as much as they have gone below the margin. -/
theorem levelAfter_take (lines : List (List Char)) (i : Nat) :
    (levelAfter 0 (lines.take i) : Int) = net lines i - lowest lines i := by
  induction i with
  | zero => rfl
  | succ i ih =>
    cases h : lines[i]? with
    | none =>
      have htake : lines.take (i + 1) = lines.take i := by
        rw [List.take_add_one, h, Option.toList_none, List.append_nil]
      rw [lowest_succ, h, net, htake, ← net, ih]
      rfl
    | some line =>
      rw [take_succ_of_getElem? h, levelAfter_append, net_succ h]
      by_cases hblank : (trim line).isEmpty
      · have hnil : trim line = [] := List.isEmpty_iff.mp hblank
        have hsolid : ¬isSolid line := by simp [isSolid, hnil]
        have hbalance : balance lines i = net lines i := by
          rw [balance_eq h, hnil]
          exact Int.sub_zero _
        rw [levelAfter, if_pos hblank, levelAfter, lowest_succ, h, Option.any_some, if_neg hsolid,
          hbalance, hnil, ih]
        simp [opens]
      · have hsolid : isSolid line := by simpa [isSolid] using hblank
        have hheight := level_eq_height h hsolid ih
        rw [height] at hheight
        simp only [levelAfter, if_neg hblank]
        split <;> omega

/-! ### Lines where they belong -/

theorem length_levels (level : Nat) (lines : List (List Char)) :
    (levels level lines).length = lines.length := by
  rw [← List.length_map, map_snd_levels, List.length_map]

theorem getElem?_levels (h : lines[i]? = some line) : (levels 0 lines)[i]? =
    some (if isSolid line then ((height lines i).toNat, trim line) else (0, [])) := by
  obtain ⟨hi, hline⟩ := List.getElem?_eq_some_iff.mp h
  have hsplit : lines = lines.take i ++ line :: lines.drop (i + 1) := by
    rw [← hline, List.getElem_cons_drop, List.take_append_drop]
  have hlength : (levels 0 (lines.take i)).length = i := by
    rw [length_levels, List.length_take]
    omega
  conv_lhs => rw [hsplit]
  rw [levels_append, List.getElem?_append_right (by omega), hlength, Nat.sub_self, levels]
  by_cases hblank : (trim line).isEmpty
  · have hsolid : ¬isSolid line := by simp [isSolid, hblank]
    rw [if_pos hblank, if_neg hsolid]
    rfl
  · have hsolid : isSolid line := by simpa [isSolid] using hblank
    have hheight := level_eq_height h hsolid (levelAfter_take lines i)
    rw [if_pos hsolid, ← hheight]
    simp only [if_neg hblank, Int.toNat_natCast]
    rfl

theorem spaces_toNat {level : Int} (h : 0 ≤ level) :
    spaces size level.toNat = (max 0 size * level).toNat := by
  rw [spaces, Int.toNat_of_nonneg h, Int.mul_comm level]
  rcases Int.le_total 0 size with hsize | hsize
  · rw [Int.max_eq_right hsize]
  · have hnone : size * level ≤ 0 := Int.mul_nonpos_of_nonpos_of_nonneg hsize h
    rw [Int.max_eq_left hsize, Int.zero_mul]
    omega

theorem spaces_zero (size : Int) : spaces size 0 = 0 := by
  simp [spaces]

theorem levels_eq_mapIdx (lines : List (List Char)) : levels 0 lines = lines.mapIdx fun i line =>
    if isSolid line then ((height lines i).toNat, trim line) else (0, []) := by
  refine (List.mapIdx_eq_iff.mpr fun i => ?_).symm
  cases h : lines[i]? with
  | some line => exact getElem?_levels h
  | none =>
    rw [Option.map_none, List.getElem?_eq_none_iff, length_levels]
    exact List.getElem?_eq_none_iff.mp h

theorem trim_eq_nil_of_not_isSolid (h : ¬isSolid line) : trim line = [] := by
  simpa [isSolid] using h

theorem map_indented_levels (lines : List (List Char)) :
    (levels 0 lines).map (indented size) = lines.mapIdx (placed size lines) := by
  refine (List.mapIdx_eq_iff.mpr fun i => ?_).symm
  rw [List.getElem?_map, levels_eq_mapIdx, List.getElem?_mapIdx, Option.map_map]
  cases h : lines[i]? with
  | none => rfl
  | some line =>
    rw [Option.map_some, Option.map_some, Function.comp, placed, margin]
    by_cases hsolid : isSolid line
    · rw [if_pos hsolid, if_pos hsolid, indented, spaces_toNat (height_nonneg h hsolid)]
    · rw [if_neg hsolid, if_neg hsolid, indented, spaces_zero, trim_eq_nil_of_not_isSolid hsolid]

theorem levelsOf_eq_mapIdx (code : String) : levelsOf code =
    (splitOn '\n' code.toList).mapIdx fun i line =>
      if isSolid line then (height (splitOn '\n' code.toList) i).toNat else 0 := by
  rw [levelsOf, levels_eq_mapIdx]
  refine List.ext_getElem? fun i => ?_
  rw [List.getElem?_map, List.getElem?_mapIdx, List.getElem?_mapIdx, Option.map_map]
  refine Option.map_congr fun line _ => ?_
  rw [Function.comp]
  split <;> rfl

theorem map_spaces_levelsOf (size : Int) (code : String) : (levelsOf code).map (spaces size) =
    (splitOn '\n' code.toList).mapIdx (margin size (splitOn '\n' code.toList)) := by
  rw [levelsOf_eq_mapIdx]
  refine List.ext_getElem? fun i => ?_
  rw [List.getElem?_map, List.getElem?_mapIdx, List.getElem?_mapIdx, Option.map_map]
  refine Option.map_congr fun line hline => ?_
  rw [Function.comp, margin]
  split
  · rename_i hsolid
    exact spaces_toNat (height_nonneg hline hsolid)
  · exact spaces_zero size

theorem counts_zero (size : Int) : Counts size 0 := by
  rw [Counts]
  omega

section Room

variable [Machine]

/-- Whether the spaces before all lines can be made: each number of them is a machine integer, and
memory has room for all. -/
structure AllFit (size : Int) (lines : List (List Char)) : Prop where
  counts : ∀ i line, lines[i]? = some line → isSolid line → Counts size (height lines i).toNat
  hasRoom : Within Machine.blanks (lines.mapIdx (margin size lines)).sum

theorem fits_levelsOf_iff : Fits size (levelsOf code) ↔ AllFit size (splitOn '\n' code.toList) := by
  constructor
  · rintro ⟨hcounts, hroom⟩
    refine ⟨fun i line hline hsolid => ?_, map_spaces_levelsOf size code ▸ hroom⟩
    obtain ⟨hi, rfl⟩ := List.getElem?_eq_some_iff.mp hline
    rw [levelsOf_eq_mapIdx] at hcounts
    have hcount := hcounts _ (List.mem_mapIdx.mpr ⟨i, hi, rfl⟩)
    rwa [if_pos hsolid] at hcount
  · rintro ⟨hcounts, hroom⟩
    refine ⟨fun level hlevel => ?_, (map_spaces_levelsOf size code).symm ▸ hroom⟩
    rw [levelsOf_eq_mapIdx] at hlevel
    obtain ⟨i, hi, rfl⟩ := List.mem_mapIdx.mp hlevel
    split
    · rename_i hsolid
      exact hcounts i _ (List.getElem?_eq_getElem hi) hsolid
    · exact counts_zero size

end Room

/-! ### Texts with the same trimmed lines -/

theorem levels_map_trim (level : Nat) (lines : List (List Char)) :
    levels level (lines.map trim) = levels level lines := by
  induction lines generalizing level with
  | nil => rfl
  | cons line lines ih =>
    rw [List.map_cons, levels, levels, trim_trim]
    by_cases hblank : (trim line).isEmpty
    · rw [if_pos hblank, if_pos hblank, ih]
    · simp only [if_neg hblank, ih]

section Format

variable [Machine]

theorem format_congr (h : trimmedLines code.toList = trimmedLines other.toList) :
    format size code = format size other := by
  have hlevels : levels 0 (splitOn '\n' code.toList) = levels 0 (splitOn '\n' other.toList) := by
    rw [← levels_map_trim, ← trimmedLines, h, trimmedLines, levels_map_trim]
  rw [format, hlevels, ← format]

theorem format_eq_ok_iff_of_format (h : format size code = .ok out) :
    format size other = .ok out ↔ trimmedLines other.toList = trimmedLines code.toList := by
  constructor
  · intro hother
    rw [← trimmedLines_format hother, trimmedLines_format h]
  · intro hlines
    rw [format_congr hlines, h]

theorem format_format (h : format size code = .ok out) : format size out = .ok out :=
  (format_eq_ok_iff_of_format h).mpr (trimmedLines_format h)

/-- A text can be indented exactly if the spaces of all its lines can be made. Its lines are then
where the balance of the braces puts them, only texts with the same trimmed lines give the same
result, and the result stays as it is. -/
theorem format_places_by_balance (size : Int) (code : String) :
    ((∃ out, format size code = .ok out) ↔ AllFit size (splitOn '\n' code.toList)) ∧
      ∀ out, format size code = .ok out →
        splitOn '\n' out.toList =
            (splitOn '\n' code.toList).mapIdx (placed size (splitOn '\n' code.toList)) ∧
          (∀ other, format size other = .ok out ↔
            trimmedLines other.toList = trimmedLines code.toList) ∧
          format size out = .ok out := by
  refine ⟨by rw [exists_format_iff, fits_levelsOf_iff], fun out hout => ⟨?_, ?_, ?_⟩⟩
  · rw [splitOn_format hout, map_indented_levels]
  · exact fun _ => format_eq_ok_iff_of_format hout
  · exact format_format hout

end Format

attribute [local instance] Machine.plain

/-- A brace too many at the start, a blank line, and a line that closes a block and opens one. -/
theorem format_places_by_balance_of_surplus_brace :
    let code := "\x7d\n  a \x7b\n \n b\n\x7d c \x7b\nd \x7d\n\x7d\ne"
    let out := "\x7d\na \x7b\n\n  b\n\x7d c \x7b\n  d \x7d\n\x7d\ne"
    let other := "  \x7d\na \x7b\n\n b\n\x7d c \x7b\nd \x7d\n\x7d\n e\t"
    AllFit 2 (splitOn '\n' code.toList) ∧ format 2 code = .ok out ∧ format 2 out = .ok out ∧
      format 2 other = .ok out := by
  intro code out other
  have hout : format 2 code = .ok out := by decide +kernel
  obtain ⟨hfits, hplaces⟩ := format_places_by_balance 2 code
  obtain ⟨-, hothers, hagain⟩ := hplaces out hout
  exact ⟨hfits.mp ⟨out, hout⟩, hout, hagain, (hothers other).mpr (by decide +kernel)⟩

/-- Spaces whose number is no machine integer cannot be made, not even where they stand for none. -/
theorem not_exists_format_of_huge_size :
    (splitOn '\n' "\x7b\nx".toList).mapIdx
        (placed (-10000000000000000000) (splitOn '\n' "\x7b\nx".toList)) = [['{'], ['x']] ∧
      ¬∃ out, format (-10000000000000000000) "\x7b\nx" = .ok out := by
  refine ⟨by decide +kernel, ?_⟩
  rintro ⟨out, hout⟩
  have hfailure : format (-10000000000000000000) "\x7b\nx" = .error .widthOutOfRange := by
    decide +kernel
  rw [hfailure] at hout
  cases hout

end StepGlue.Indentation
