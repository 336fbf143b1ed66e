import StepGlue.Proofs.Regex.Basic

/-!
# Backtracking search

`search` lists all matches in the order in which a backtracking engine comes upon them: the choices
are made from the left, and each repetition tries its lengths in the order of its preference. The
list is complete, and `head?_search_many_iff` says what it takes to be found first.
-/

namespace StepGlue.Regex

/-- The ways to split off a run of characters, shorter runs first. -/
def runs (admits : Char → Bool) : List Char → List (List Char × List Char)
  | [] => [([], [])]
  | c :: rest =>
    ([], c :: rest) ::
      if admits c then (runs admits rest).map fun way => (c :: way.1, way.2) else []

def Preference.arrange {α : Type} : Preference → List α → List α
  | longestFirst, ways => ways.reverse
  | shortestFirst, ways => ways

/-- Whether a repetition tries one text before another. -/
def Preference.TriesFirst : Preference → List Char → List Char → Prop
  | longestFirst, first, second => second.length < first.length
  | shortestFirst, first, second => first.length < second.length

variable (digits : Digits)

def Piece.ways : Piece → List Char → List (List Char × List Char)
  | one _, [] => []
  | one cls, c :: rest => if cls.admits digits c then [([c], rest)] else []
  | many cls least preference, text =>
    preference.arrange
      ((runs (cls.admits digits) text).filter fun way => least ≤ way.1.length)

def waysOfPieces : List Piece → List Char → List (List Char × List Char)
  | [], text => [([], text)]
  | piece :: pieces, text =>
    (piece.ways digits text).flatMap fun way =>
      (waysOfPieces pieces way.2).map fun later => (way.1 ++ later.1, later.2)

/-- The matches of `items` at the start of the text after `before`: the captures and the text that
is left, in the order of the search. -/
def search (before : List Char) : List Item → List Char → List (List (List Char) × List Char)
  | [], text => [([], text)]
  | .piece piece :: items, text =>
    (piece.ways digits text).flatMap fun way => search (before ++ way.1) items way.2
  | .group body :: items, text =>
    (waysOfPieces digits body text).flatMap fun way =>
      (search (before ++ way.1) items way.2).map fun found => (way.1 :: found.1, found.2)
  | .start :: items, text => if before = [] then search before items text else []
  | .finish :: items, text =>
    if text = [] ∨ text = ['\n'] then search before items text else []

/-- What the groups capture in the match that is found first. -/
def first? (items : List Item) (text : List Char) : Option (List (List Char)) :=
  (search digits [] items text).head?.map Prod.fst

/-! ### The search finds the matches -/

variable {digits}

theorem mem_runs_iff {admits : Char → Bool} {text run rest : List Char} :
    (run, rest) ∈ runs admits text ↔ text = run ++ rest ∧ ∀ c ∈ run, admits c := by
  induction text generalizing run with
  | nil =>
    rw [runs, List.mem_singleton, Prod.mk.injEq, List.nil_eq, List.append_eq_nil_iff]
    constructor
    · rintro ⟨rfl, rfl⟩
      simp
    · rintro ⟨h, -⟩
      exact h
  | cons c text ih =>
    rw [runs, List.mem_cons, Prod.mk.injEq]
    cases run with
    | nil =>
      have hlater : ([], rest) ∉
          if admits c then (runs admits text).map fun way => (c :: way.1, way.2) else [] := by
        split <;> simp
      constructor
      · rintro (⟨-, rfl⟩ | hmem)
        · exact ⟨rfl, by simp⟩
        · exact absurd hmem hlater
      · rintro ⟨htext, -⟩
        exact .inl ⟨rfl, htext.symm⟩
    | cons d run =>
      by_cases hc : admits c
      · simp only [if_pos hc, List.mem_map, Prod.mk.injEq, List.cons.injEq, reduceCtorEq,
          false_and, false_or, Prod.exists, List.cons_append, List.forall_mem_cons]
        constructor
        · rintro ⟨run', rest', hmem, ⟨rfl, rfl⟩, rfl⟩
          obtain ⟨rfl, hrun⟩ := ih.mp hmem
          exact ⟨⟨rfl, rfl⟩, hc, hrun⟩
        · rintro ⟨⟨rfl, rfl⟩, -, hrun⟩
          exact ⟨run, rest, ih.mpr ⟨rfl, hrun⟩, ⟨rfl, rfl⟩, rfl⟩
      · simp only [if_neg hc, List.not_mem_nil, reduceCtorEq, false_and, or_false, false_iff,
          List.cons_append, List.cons.injEq, List.forall_mem_cons]
        rintro ⟨⟨rfl, -⟩, hd, -⟩
        exact hc hd

theorem Preference.mem_arrange {α : Type} (preference : Preference) {ways : List α} {way : α} :
    way ∈ preference.arrange ways ↔ way ∈ ways := by
  cases preference with
  | longestFirst => exact List.mem_reverse
  | shortestFirst => exact Iff.rfl

theorem Piece.mem_ways_iff {piece : Piece} {text first rest : List Char} :
    (first, rest) ∈ piece.ways digits text ↔ text = first ++ rest ∧ piece.Matches digits first := by
  cases piece with
  | one cls =>
    cases text with
    | nil =>
      simp only [ways, List.not_mem_nil, false_iff, Matches]
      rintro ⟨htext, c, rfl, -⟩
      exact absurd htext (by simp)
    | cons c text =>
      simp only [ways, Matches]
      by_cases hc : cls.admits digits c
      · rw [if_pos hc, List.mem_singleton, Prod.mk.injEq]
        constructor
        · rintro ⟨rfl, rfl⟩
          exact ⟨rfl, c, rfl, hc⟩
        · rintro ⟨htext, d, rfl, -⟩
          rw [List.singleton_append, List.cons.injEq] at htext
          exact ⟨by rw [htext.1], htext.2.symm⟩
      · simp only [if_neg hc, List.not_mem_nil, false_iff]
        rintro ⟨htext, d, rfl, hd⟩
        rw [List.singleton_append, List.cons.injEq] at htext
        exact hc (htext.1 ▸ hd)
  | many cls least preference =>
    rw [ways, preference.mem_arrange, List.mem_filter, mem_runs_iff, decide_eq_true_eq, Matches,
      and_assoc, and_comm (a := ∀ c ∈ first, _)]

theorem mem_waysOfPieces_iff {pieces : List Piece} {text first rest : List Char} :
    (first, rest) ∈ waysOfPieces digits pieces text ↔
      text = first ++ rest ∧ PiecesMatch digits pieces first := by
  induction pieces generalizing text first with
  | nil =>
    rw [waysOfPieces, List.mem_singleton, Prod.mk.injEq, PiecesMatch]
    constructor
    · rintro ⟨rfl, rfl⟩
      exact ⟨rfl, rfl⟩
    · rintro ⟨rfl, rfl⟩
      exact ⟨rfl, rfl⟩
  | cons piece pieces ih =>
    simp only [waysOfPieces, List.mem_flatMap, List.mem_map, Prod.exists, Prod.mk.injEq,
      PiecesMatch]
    constructor
    · rintro ⟨part, tail, hpart, others, rest', hothers, rfl, rfl⟩
      obtain ⟨rfl, hpiece⟩ := Piece.mem_ways_iff.mp hpart
      obtain ⟨rfl, hpieces⟩ := ih.mp hothers
      exact ⟨by simp, part, others, rfl, hpiece, hpieces⟩
    · rintro ⟨rfl, part, others, rfl, hpiece, hpieces⟩
      exact ⟨part, others ++ rest, Piece.mem_ways_iff.mpr ⟨by simp, hpiece⟩, others, rest,
        ih.mpr ⟨rfl, hpieces⟩, rfl, rfl⟩

/-- The search finds all matches and nothing else. -/
theorem mem_search_iff {before : List Char} {items : List Item} {text rest : List Char}
    {captures : List (List Char)} :
    (captures, rest) ∈ search digits before items text ↔
      Matches digits before items text captures rest := by
  induction items generalizing before text captures with
  | nil => rw [search, List.mem_singleton, Prod.mk.injEq, matches_nil_iff]
  | cons item items ih =>
    cases item with
    | piece piece =>
      simp only [search, List.mem_flatMap, Prod.exists, matches_piece_iff, Piece.mem_ways_iff, ih]
      simp only [and_assoc]
    | group body =>
      simp only [search, List.mem_flatMap, List.mem_map, Prod.exists, Prod.mk.injEq,
        matches_group_iff, mem_waysOfPieces_iff]
      constructor
      · rintro ⟨first, tail, ⟨rfl, hbody⟩, captures', rest', hmem, rfl, rfl⟩
        exact ⟨first, tail, captures', rfl, rfl, hbody, ih.mp hmem⟩
      · rintro ⟨first, tail, captures', rfl, rfl, hbody, hmatches⟩
        exact ⟨first, tail, ⟨rfl, hbody⟩, captures', rest, ih.mpr hmatches, rfl, rfl⟩
    | start =>
      rw [search, matches_start_iff]
      by_cases hbefore : before = []
      · simp [hbefore, ih]
      · simp [hbefore]
    | finish =>
      rw [search, matches_finish_iff]
      by_cases hend : text = [] ∨ text = ['\n']
      · rw [if_pos hend, ih]
        simp [hend]
      · simp [hend]

/-! ### The order of the search -/

theorem pairwise_runs (admits : Char → Bool) (text : List Char) :
    (runs admits text).Pairwise fun way way' => way.1.length < way'.1.length := by
  induction text with
  | nil => simp [runs]
  | cons c text ih =>
    rw [runs, List.pairwise_cons]
    split
    · constructor
      · intro way hway
        obtain ⟨way', -, rfl⟩ := List.mem_map.mp hway
        simp
      · rw [List.pairwise_map]
        exact ih.imp (by simp)
    · simp

theorem pairwise_ways {cls : CharClass} {least : Nat} (preference : Preference)
    (text : List Char) :
    ((Piece.many cls least preference).ways digits text).Pairwise fun way way' =>
      preference.TriesFirst way.1 way'.1 := by
  have hruns := (pairwise_runs (cls.admits digits) text).filter fun way => least ≤ way.1.length
  cases preference with
  | longestFirst => exact List.pairwise_reverse.mpr hruns
  | shortestFirst => exact hruns

/-- In a list in the order of trying, what is found first comes from the first way that leads to
something. -/
theorem findSome?_eq_some_iff_of_pairwise {α β : Type} {before : α → α → Prop} {ways : List α}
    (hpairwise : ways.Pairwise before) (hirrefl : ∀ way, ¬before way way)
    (hasymm : ∀ way way', before way way' → ¬before way' way) {f : α → Option β} {b : β} :
    ways.findSome? f = some b ↔
      ∃ way ∈ ways, f way = some b ∧ ∀ earlier ∈ ways, before earlier way → f earlier = none := by
  rw [List.findSome?_eq_some_iff]
  constructor
  · rintro ⟨earlier, way, later, rfl, hway, hnone⟩
    refine ⟨way, by simp, hway, fun other hother hbefore => ?_⟩
    rw [List.pairwise_append, List.pairwise_cons] at hpairwise
    rcases List.mem_append.mp hother with hother | hother
    · exact hnone other hother
    rcases List.mem_cons.mp hother with rfl | hother
    · exact absurd hbefore (hirrefl _)
    · exact absurd hbefore (hasymm _ _ (hpairwise.2.1.1 other hother))
  · rintro ⟨way, hmem, hway, hnone⟩
    obtain ⟨earlier, later, rfl⟩ := List.append_of_mem hmem
    refine ⟨earlier, way, later, rfl, hway, fun other hother => ?_⟩
    rw [List.pairwise_append] at hpairwise
    exact hnone other (List.mem_append_left _ hother)
      (hpairwise.2.2 other hother way List.mem_cons_self)

theorem Preference.not_triesFirst_self (preference : Preference) (text : List Char) :
    ¬preference.TriesFirst text text := by
  cases preference <;> simp [TriesFirst]

theorem Preference.TriesFirst.asymm {preference : Preference} {first second : List Char}
    (h : preference.TriesFirst first second) : ¬preference.TriesFirst second first := by
  cases preference <;> simp only [TriesFirst] at h ⊢ <;> omega

/-- A repetition in a group takes the first of the texts that it tries behind which the rest
matches. -/
theorem head?_search_many_iff {before text inner rest : List Char} {items : List Item}
    {cls : CharClass} {least : Nat} {preference : Preference} {captures : List (List Char)} :
    (search digits before (.group [.many cls least preference] :: items) text).head? =
        some (inner :: captures, rest) ↔
      ∃ tail, text = inner ++ tail ∧ (Piece.many cls least preference).Matches digits inner ∧
        (search digits (before ++ inner) items tail).head? = some (captures, rest) ∧
        ∀ earlier tail', text = earlier ++ tail' →
          (Piece.many cls least preference).Matches digits earlier →
          preference.TriesFirst earlier inner →
          search digits (before ++ earlier) items tail' = [] := by
  have hways : waysOfPieces digits [.many cls least preference] text =
      (Piece.many cls least preference).ways digits text := by
    simp [waysOfPieces]
  rw [search, hways, List.head?_flatMap, findSome?_eq_some_iff_of_pairwise
    (pairwise_ways preference text) (fun way => preference.not_triesFirst_self way.1)
    (fun way way' => Preference.TriesFirst.asymm)]
  simp only [Prod.exists, Prod.forall, Piece.mem_ways_iff, List.head?_map, Option.map_eq_some_iff,
    Option.map_eq_none_iff, List.head?_eq_none_iff, Prod.mk.injEq, List.cons.injEq]
  constructor
  · rintro ⟨inner', tail, ⟨htext, hinner⟩, ⟨captures', rest', hfound, ⟨rfl, rfl⟩, rfl⟩, hearlier⟩
    exact ⟨tail, htext, hinner, hfound, fun earlier tail' htext' hmatches htries =>
      hearlier earlier tail' ⟨htext', hmatches⟩ htries⟩
  · rintro ⟨tail, htext, hinner, hfound, hearlier⟩
    exact ⟨inner, tail, ⟨htext, hinner⟩, ⟨captures, rest, hfound, ⟨rfl, rfl⟩, rfl⟩,
      fun earlier tail' hmatches htries => hearlier earlier tail' hmatches.1 hmatches.2 htries⟩

end StepGlue.Regex
