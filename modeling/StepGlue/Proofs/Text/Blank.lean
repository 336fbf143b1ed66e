import Mathlib.Data.List.DropRight
import StepGlue.Text.Blank

/-!
# Trimmed texts

A trimmed text neither starts nor ends with a blank, and the blanks put before it are what trimming
takes away again.
-/

namespace StepGlue.Text

variable {s rest : List Char} {c : Char}

theorem toNat_le_of_isBlank (h : isBlank c) : c.toNat ≤ 0x3000 := by
  simp only [isBlank, Bool.or_eq_true, Bool.and_eq_true, decide_eq_true_eq, beq_iff_eq] at h
  omega

theorem trimRight_isPrefix (s : List Char) : trimRight s <+: s :=
  List.rdropWhile_prefix isBlank s

theorem trim_isInfix (s : List Char) : trim s <:+: s :=
  (trimRight_isPrefix _).isInfix.trans (List.dropWhile_suffix isBlank).isInfix

theorem mem_of_mem_trim (h : c ∈ trim s) : c ∈ s :=
  (trim_isInfix s).subset h

/-! ### The ends of a text -/

theorem head?_trimRight_cons (h : ¬isBlank c) : (trimRight (c :: rest)).head? = some c := by
  have hne : trimRight (c :: rest) ≠ [] := by
    intro hnil
    have hall := List.rdropWhile_eq_nil_iff.mp hnil
    exact h (hall c List.mem_cons_self)
  obtain ⟨d, tail, htrim⟩ := List.exists_cons_of_ne_nil hne
  have hprefix := trimRight_isPrefix (c :: rest)
  rw [htrim, List.cons_prefix_cons] at hprefix
  rw [htrim, hprefix.1, List.head?_cons]

theorem not_isBlank_of_trimLeft_eq_cons (h : trimLeft s = c :: rest) : ¬isBlank c := by
  have hhead := List.head?_dropWhile_not isBlank s
  rw [show s.dropWhile isBlank = c :: rest from h] at hhead
  simpa using hhead

theorem not_isBlank_of_mem_head?_trim (h : c ∈ (trim s).head?) : ¬isBlank c := by
  rw [trim] at h
  cases hleft : trimLeft s with
  | nil =>
    rw [hleft] at h
    exact absurd h (by simp [trimRight])
  | cons d rest =>
    have hd : ¬isBlank d := not_isBlank_of_trimLeft_eq_cons hleft
    rw [hleft, head?_trimRight_cons hd] at h
    exact Option.some.inj h ▸ hd

theorem not_isBlank_of_mem_getLast?_trim (h : c ∈ (trim s).getLast?) : ¬isBlank c := by
  rw [trim, trimRight, List.getLast?_reverse] at h
  have hhead := List.head?_dropWhile_not isBlank (trimLeft s).reverse
  rw [Option.mem_def.mp h] at hhead
  simpa using hhead

theorem trimLeft_eq_self (hhead : ∀ c ∈ s.head?, ¬isBlank c) : trimLeft s = s := by
  cases s with
  | nil => rfl
  | cons c rest => exact List.dropWhile_cons_of_neg (hhead c rfl)

theorem trimRight_eq_self (hlast : ∀ c ∈ s.getLast?, ¬isBlank c) : trimRight s = s := by
  have hreverse : s.reverse.dropWhile isBlank = s.reverse := by
    refine trimLeft_eq_self fun c hc => hlast c ?_
    rwa [List.getLast?_eq_head?_reverse]
  rw [trimRight, hreverse, List.reverse_reverse]

theorem trim_eq_self (hhead : ∀ c ∈ s.head?, ¬isBlank c) (hlast : ∀ c ∈ s.getLast?, ¬isBlank c) :
    trim s = s := by
  rw [trim, trimLeft_eq_self hhead, trimRight_eq_self hlast]

theorem trim_of_ends {d : Char} {inner : List Char} (hc : ¬isBlank c) (hd : ¬isBlank d) :
    trim (c :: (inner ++ [d])) = c :: (inner ++ [d]) := by
  refine trim_eq_self (fun b hb => ?_) fun b hb => ?_
  · exact Option.some.inj hb ▸ hc
  · rw [← List.cons_append, List.getLast?_concat] at hb
    exact Option.some.inj hb ▸ hd

theorem trim_eq_self_iff :
    trim s = s ↔ (∀ c ∈ s.head?, ¬isBlank c) ∧ ∀ c ∈ s.getLast?, ¬isBlank c := by
  constructor
  · intro h
    rw [← h]
    exact ⟨fun c => not_isBlank_of_mem_head?_trim, fun c => not_isBlank_of_mem_getLast?_trim⟩
  · exact fun h => trim_eq_self h.1 h.2

@[simp]
theorem trim_trim (s : List Char) : trim (trim s) = trim s :=
  trim_eq_self (fun _ => not_isBlank_of_mem_head?_trim) fun _ => not_isBlank_of_mem_getLast?_trim

theorem getLast?_trimLeft (h : ∀ c ∈ s.getLast?, ¬isBlank c) :
    (trimLeft s).getLast? = s.getLast? := by
  have hsplit : s.takeWhile isBlank ++ trimLeft s = s := List.takeWhile_append_dropWhile
  cases hleft : trimLeft s with
  | nil =>
    have hall := List.dropWhile_eq_nil_iff.mp hleft
    cases hlast : s.getLast? with
    | none => rfl
    | some c => exact absurd (hall c (List.mem_of_getLast? hlast)) (h c hlast)
  | cons c rest =>
    rw [← hsplit, hleft, List.getLast?_append, List.getLast?_cons]
    rfl

/-! ### Blanks in front -/

theorem trimLeft_append_of_blank {blanks : List Char} (h : blanks.all isBlank) :
    trimLeft (blanks ++ s) = trimLeft s :=
  List.dropWhile_append_of_pos (List.all_eq_true.mp h)

theorem trim_replicate_append (n : Nat) (s : List Char) :
    trim (List.replicate n ' ' ++ s) = trim s := by
  have hblank : (List.replicate n ' ').all isBlank := by
    rw [List.all_replicate]
    split <;> rfl
  rw [trim, trimLeft_append_of_blank hblank, trim]

theorem trimLeft_append (h : trimLeft s ≠ []) : trimLeft (s ++ rest) = trimLeft s ++ rest := by
  rw [trimLeft, List.dropWhile_append, if_neg]
  · rfl
  · rw [List.isEmpty_iff]
    exact h

theorem head?_trim (s : List Char) : (trim s).head? = (trimLeft s).head? := by
  rw [trim]
  cases hleft : trimLeft s with
  | nil => rfl
  | cons c rest => exact head?_trimRight_cons (not_isBlank_of_trimLeft_eq_cons hleft)

/-! ### Blanks at both ends -/

theorem trim_cons_of_blank (h : isBlank c) : trim (c :: s) = trim s := by
  rw [trim, trimLeft, List.dropWhile_cons_of_pos h, ← trimLeft, ← trim]

theorem trim_append_of_blank (h : blanks.all isBlank) : trim (s ++ blanks) = trim s := by
  have hblanks : ∀ c ∈ blanks.reverse, isBlank c :=
    fun c hc => List.all_eq_true.mp h c (List.mem_reverse.mp hc)
  by_cases hall : trimLeft s = []
  · have hleft : trimLeft (s ++ blanks) = [] := by
      rw [trimLeft, List.dropWhile_append_of_pos (List.dropWhile_eq_nil_iff.mp hall)]
      exact List.dropWhile_eq_nil_iff.mpr (List.all_eq_true.mp h)
    rw [trim, hleft, trim, hall]
  · rw [trim, trimLeft_append hall, trimRight, List.reverse_append,
      List.dropWhile_append_of_pos hblanks, ← trimRight, ← trim]

theorem exists_blanks_trim (s : List Char) : ∃ before after, before.all isBlank ∧
    after.all isBlank ∧ s = before ++ trim s ++ after := by
  refine ⟨s.takeWhile isBlank, ((trimLeft s).reverse.takeWhile isBlank).reverse,
    List.all_takeWhile, ?_, ?_⟩
  · rw [List.all_reverse]
    exact List.all_takeWhile
  · rw [trim, trimRight, List.append_assoc, ← List.reverse_append, List.takeWhile_append_dropWhile,
      List.reverse_reverse, trimLeft, List.takeWhile_append_dropWhile]

theorem trim_eq_nil_iff : trim s = [] ↔ s.all isBlank := by
  constructor
  · intro h
    obtain ⟨before, after, hbefore, hafter, hs⟩ := exists_blanks_trim s
    rw [hs, h, List.append_nil, List.all_append, hbefore, hafter, Bool.and_true]
  · intro h
    have hnil := trim_append_of_blank (s := []) h
    rwa [List.nil_append] at hnil

/-! ### Words -/

/-- The words of a text hold its characters that are not blank, in order. -/
theorem flatten_words (s : List Char) : (words s).flatten = s.filter fun c => !isBlank c := by
  fun_induction words s with
  | case1 => rfl
  | case2 c hc => simp [hc]
  | case3 c hc => simp [hc]
  | case4 c d rest hc ih => simp [hc, ih]
  | case5 c d rest hc hd ih => simp [hc, ih]
  | case6 c d rest hc hd hrest ih =>
    rw [hrest] at ih
    simp [hc, ← ih]
  | case7 c d rest hc hd word others hrest ih =>
    rw [hrest] at ih
    simp [hc, ← ih]

theorem mem_and_not_isBlank_of_mem_words {word : List Char} (hword : word ∈ words s)
    (hc : c ∈ word) : c ∈ s ∧ ¬isBlank c := by
  have hflatten : c ∈ (words s).flatten := List.mem_flatten.mpr ⟨word, hword, hc⟩
  rw [flatten_words, List.mem_filter] at hflatten
  simpa using hflatten

end StepGlue.Text
