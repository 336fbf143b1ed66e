import Mathlib.Logic.Function.Basic
import StepGlue.Proofs.Step.SlotName
import StepGlue.Proofs.Step.Segment

/-!
# Names by kind and order

Each search can name what it finds at once, with a count of its own for each kind, although later
searches find more in between: a search finds one kind only, and from left to right. So the names
are those by place in the whole text (`parametersInTurn_eq`), and of each kind the first has number
one, the second has number two, and so on, whatever names the others have.
-/

namespace StepGlue.Segment

open Text Parameter

variable {kind : Kind} {segments : List Segment} {search : List Char → List Segment}

/-! ### Naming search by search -/

/-- A part of a text of which the parameters found so far have their names. -/
inductive Piece where
  | literal (text : List Char)
  | parameter (p : Parameter)
deriving DecidableEq, Repr

def Piece.parameter? : Piece → Option Parameter
  | literal _ => none
  | parameter p => some p

/-- How many parameters of each kind were named. -/
abbrev Counts := Kind → Nat

def Counts.none : Counts :=
  fun _ => 0

def Counts.next (counts : Counts) (kind : Kind) : Counts :=
  Function.update counts kind (counts kind + 1)

/-- Names what a search found in one literal. -/
def nameFound (counts : Counts) : List Segment → List Piece × Counts
  | [] => ([], counts)
  | literal text :: rest =>
    let (pieces, counts) := nameFound counts rest
    (.literal text :: pieces, counts)
  | slot kind value :: rest =>
    let counts := counts.next kind
    let name := slotName kind (counts kind) value
    let (pieces, counts) := nameFound counts rest
    (.parameter { kind, name, value := String.ofList value } :: pieces, counts)

/-- Searches the literals from left to right; parameters that are there stay as they are. -/
def searchPieces (search : List Char → List Segment) (counts : Counts) :
    List Piece → List Piece × Counts
  | [] => ([], counts)
  | .parameter p :: rest =>
    let (pieces, counts) := searchPieces search counts rest
    (.parameter p :: pieces, counts)
  | .literal text :: rest =>
    let (found, counts) := nameFound counts (search text)
    let (pieces, counts) := searchPieces search counts rest
    (found ++ pieces, counts)

/-- The parameters of a text, each named by the search that finds it. -/
def parametersInTurn (text : List Char) : List Parameter :=
  let first := searchPieces (delimited .quoted '"' '"') .none [.literal text]
  let second := searchPieces (delimited .placeholder '<' '>') first.2 first.1
  let third := searchPieces numbers second.2 second.1
  third.1.filterMap Piece.parameter?

/-! ### Naming by place -/

/-- The pieces of a text if all names are counted out from left to right at once. -/
def named (counts : Counts) : List Segment → List Piece
  | [] => []
  | literal text :: rest => .literal text :: named counts rest
  | slot kind value :: rest =>
    .parameter ⟨kind, slotName kind (counts kind + 1) value, String.ofList value⟩ ::
      named (counts.next kind) rest

def Counts.after (counts : Counts) (segments : List Segment) : Counts :=
  fun kind => counts kind + (segments.filterMap kind?).count kind

variable {counts other : Counts}

@[simp]
theorem Counts.next_self (counts : Counts) (kind : Kind) :
    counts.next kind kind = counts kind + 1 :=
  Function.update_self ..

theorem Counts.next_of_ne {kind other : Kind} (h : other ≠ kind) (counts : Counts) :
    counts.next kind other = counts other :=
  Function.update_of_ne h ..

theorem Counts.after_literal (counts : Counts) (text : List Char) (segments : List Segment) :
    counts.after (literal text :: segments) = counts.after segments := rfl

theorem Counts.after_slot (counts : Counts) (kind : Kind) (value : List Char)
    (segments : List Segment) :
    counts.after (slot kind value :: segments) = (counts.next kind).after segments := by
  funext other
  by_cases h : other = kind
  · subst h
    simp [after, kind?, Nat.add_assoc, Nat.add_comm 1]
  · simp [after, kind?, next_of_ne h, Ne.symm h]

theorem nameFound_eq (counts : Counts) (segments : List Segment) :
    nameFound counts segments = (named counts segments, counts.after segments) := by
  induction segments generalizing counts with
  | nil => rfl
  | cons segment segments ih =>
    cases segment with
    | literal text => rw [nameFound, ih, named, Counts.after_literal]
    | slot kind value => rw [nameFound, ih, named, Counts.after_slot, Counts.next_self]

theorem named_append (counts : Counts) (segments more : List Segment) :
    named counts (segments ++ more) =
      named counts segments ++ named (counts.after segments) more := by
  induction segments generalizing counts with
  | nil => rfl
  | cons segment segments ih =>
    cases segment with
    | literal text =>
      rw [List.cons_append, named, named, ih, Counts.after_literal, List.cons_append]
    | slot kind value =>
      rw [List.cons_append, named, named, ih, Counts.after_slot, List.cons_append]

/-- Only the counts of the kinds that come up matter. -/
theorem named_congr (h : ∀ kind ∈ segments.filterMap kind?, counts kind = other kind) :
    named counts segments = named other segments := by
  induction segments generalizing counts other with
  | nil => rfl
  | cons segment segments ih =>
    cases segment with
    | literal text => rw [named, named, ih h]
    | slot kind value =>
      have hkind : counts kind = other kind := h kind (by simp [kind?])
      have hrest : ∀ k ∈ segments.filterMap kind?, counts.next kind k = other.next kind k := by
        intro k hk
        by_cases hne : k = kind
        · rw [hne, Counts.next_self, Counts.next_self, hkind]
        · rw [Counts.next_of_ne hne, Counts.next_of_ne hne]
          exact h k (by simp [kind?, hk])
      rw [named, named, hkind, ih hrest]

theorem filterMap_parameter?_named {seen : List Kind} (h : ∀ kind, counts kind = seen.count kind) :
    (named counts segments).filterMap Piece.parameter? = parametersAfter seen segments := by
  induction segments generalizing counts seen with
  | nil => rfl
  | cons segment segments ih =>
    cases segment with
    | literal text => exact ih h
    | slot kind value =>
      have hnext : ∀ k, counts.next kind k = (kind :: seen).count k := by
        intro k
        by_cases hk : k = kind
        · rw [hk, Counts.next_self, List.count_cons_self, h]
        · rw [Counts.next_of_ne hk, List.count_cons_of_ne (Ne.symm hk), h]
      rw [named, parametersAfter, List.filterMap_cons, Piece.parameter?, h, ih hnext]

/-! ### One kind for each search -/

/-- All that a search finds is of one kind. -/
def FindsOnly (kind : Kind) (search : List Char → List Segment) : Prop :=
  ∀ text, ∀ k ∈ (search text).filterMap kind?, k = kind

theorem filterMap_kind?_consLiteral (text : List Char) (segments : List Segment) :
    (consLiteral text segments).filterMap kind? = segments.filterMap kind? := by
  unfold consLiteral
  split <;> rfl

theorem findsOnly_delimited (kind : Kind) (opening closing : Char) :
    FindsOnly kind (delimited kind opening closing) := by
  intro text
  fun_induction delimited kind opening closing text with
  | case1 => simp
  | case2 rest value after hcut ih => simpa [kind?] using ih
  | case3 rest hcut => simp [kind?]
  | case4 c rest hc ih => rwa [filterMap_kind?_consLiteral]

theorem findsOnly_numbers : FindsOnly .number numbers := by
  intro text
  fun_induction numbers text with
  | case1 => simp
  | case2 c rest hc word others hword ih => simpa [kind?] using ih
  | case3 c rest hc word others hword ih => rwa [filterMap_kind?_consLiteral]
  | case4 c rest hc ih => rwa [filterMap_kind?_consLiteral]

theorem not_mem_filterMap_kind?_refine {k : Kind} (hsearch : FindsOnly kind search) (hk : k ≠ kind)
    (h : k ∉ segments.filterMap kind?) :
    k ∉ (segments.flatMap (refine search)).filterMap kind? := by
  induction segments with
  | nil => simp
  | cons segment segments ih =>
    rw [List.flatMap_cons, List.filterMap_append, List.mem_append, not_or]
    cases segment with
    | literal text => exact ⟨fun hmem => hk (hsearch text k hmem), ih h⟩
    | slot other value =>
      rw [List.filterMap_cons, kind?, List.mem_cons, not_or] at h
      exact ⟨by simp [refine, kind?, h.1], ih h.2⟩

theorem fst_searchPieces_literal (search : List Char → List Segment) (counts : Counts)
    (text : List Char) (pieces : List Piece) :
    (searchPieces search counts (.literal text :: pieces)).1 =
      named counts (search text) ++
        (searchPieces search (counts.after (search text)) pieces).1 := by
  rw [searchPieces, nameFound_eq]

theorem fst_searchPieces_parameter (search : List Char → List Segment) (counts : Counts)
    (p : Parameter) (pieces : List Piece) :
    (searchPieces search counts (.parameter p :: pieces)).1 =
      .parameter p :: (searchPieces search counts pieces).1 :=
  rfl

/-- A search gives out names of its own kind only. -/
theorem snd_searchPieces (hsearch : FindsOnly kind search) {k : Kind} (hk : k ≠ kind)
    (counts : Counts) (pieces : List Piece) :
    (searchPieces search counts pieces).2 k = counts k := by
  induction pieces generalizing counts with
  | nil => rfl
  | cons piece pieces ih =>
    cases piece with
    | parameter p => exact ih counts
    | literal text =>
      have hcount : ((search text).filterMap kind?).count k = 0 :=
        List.count_eq_zero.mpr fun hmem => hk (hsearch text k hmem)
      rw [searchPieces, nameFound_eq, ih, Counts.after, hcount, Nat.add_zero]

/-- What is found between names that stand already is numbered as if all names were counted out at
once: the names of other kinds stay, and of its own kind there was none. -/
theorem fst_searchPieces_named (hsearch : FindsOnly kind search) {base : Counts}
    (hnone : kind ∉ segments.filterMap kind?) (hself : other kind = counts kind)
    (hother : ∀ k ≠ kind, other k = base k) :
    (searchPieces search counts (named base segments)).1 =
      named other (segments.flatMap (refine search)) := by
  -- `base` moves on at names that stand already, `counts` at those that are found, `other` at both.
  induction segments generalizing base counts other with
  | nil => rfl
  | cons segment segments ih =>
    cases segment with
    | literal text =>
      have hfound : named counts (search text) = named other (search text) :=
        named_congr fun k hk => by rw [hsearch text k hk, hself]
      have hselfAfter : other.after (search text) kind = counts.after (search text) kind := by
        rw [Counts.after, Counts.after, hself]
      have hotherAfter : ∀ k ≠ kind, other.after (search text) k = base k := by
        intro k hk
        have hcount : ((search text).filterMap kind?).count k = 0 :=
          List.count_eq_zero.mpr fun hmem => hk (hsearch text k hmem)
        rw [Counts.after, hcount, Nat.add_zero, hother k hk]
      rw [named, fst_searchPieces_literal, ih hnone hselfAfter hotherAfter, hfound,
        List.flatMap_cons, refine, named_append]
    | slot found value =>
      rw [List.filterMap_cons, kind?, List.mem_cons, not_or] at hnone
      have hselfNext : other.next found kind = counts kind := by
        rw [Counts.next_of_ne hnone.1, hself]
      have hotherNext : ∀ k ≠ kind, other.next found k = base.next found k := by
        intro k hk
        by_cases hfound : k = found
        · rw [hfound, Counts.next_self, Counts.next_self, hother _ (Ne.symm hnone.1)]
        · rw [Counts.next_of_ne hfound, Counts.next_of_ne hfound, hother k hk]
      rw [named, fst_searchPieces_parameter, ih hnone.2 hselfNext hotherNext, List.flatMap_cons,
        refine, List.singleton_append, named, hother _ (Ne.symm hnone.1)]

theorem fst_searchPieces_none (hsearch : FindsOnly kind search)
    (hnone : kind ∉ segments.filterMap kind?) (hcounts : counts kind = 0) :
    (searchPieces search counts (named .none segments)).1 =
      named .none (segments.flatMap (refine search)) :=
  fst_searchPieces_named hsearch hnone hcounts.symm fun _ _ => rfl

/-- The order of the searches plays no part. -/
theorem parametersInTurn_eq (text : List Char) :
    parametersInTurn text = parameters (scan text) := by
  have hquoted := findsOnly_delimited .quoted '"' '"'
  have hplaceholder := findsOnly_delimited .placeholder '<' '>'
  have hkinds : ∀ k ≠ .quoted, k ∉ (delimited .quoted '"' '"' text).filterMap kind? :=
    fun k hk hmem => hk (hquoted text k hmem)
  let first := searchPieces (delimited .quoted '"' '"') .none [.literal text]
  let second := searchPieces (delimited .placeholder '<' '>') first.2 first.1
  have hfirst : first.1 = named .none (delimited .quoted '"' '"' text) := by
    rw [fst_searchPieces_literal, searchPieces, List.append_nil]
  have hfirstCounts : ∀ k ≠ .quoted, first.2 k = 0 := fun k hk => snd_searchPieces hquoted hk _ _
  have hsecond : second.1 = named .none
      ((delimited .quoted '"' '"' text).flatMap (refine (delimited .placeholder '<' '>'))) := by
    rw [← fst_searchPieces_none hplaceholder (hkinds _ (by decide)) (hfirstCounts _ (by decide)),
      ← hfirst]
  have hsecondCount : second.2 .number = 0 := by
    rw [snd_searchPieces hplaceholder (by decide), hfirstCounts _ (by decide)]
  have hthird : (searchPieces numbers second.2 second.1).1 = named .none (scan text) := by
    rw [hsecond, fst_searchPieces_none findsOnly_numbers _ hsecondCount, scan]
    exact not_mem_filterMap_kind?_refine hplaceholder (by decide) (hkinds _ (by decide))
  calc parametersInTurn text
      = (searchPieces numbers second.2 second.1).1.filterMap Piece.parameter? := rfl
    _ = parametersAfter [] (scan text) := by
        have hnone : ∀ kind, Counts.none kind = ([] : List Kind).count kind := fun _ => rfl
        rw [hthird, filterMap_parameter?_named hnone]

/-! ### Names -/

/-- The name of the `j`-th parameter of its kind. -/
structure IsNamed (j : Nat) (p : Parameter) : Prop where
  quoted : p.kind = .quoted → p.name = "param" ++ toString j
  number : p.kind = .number → p.name = "number" ++ toString j
  placeholder : p.kind = .placeholder →
    p.name = if lower (underscored (trim p.value.toList)) = [] then "arg" ++ toString j
      else String.ofList (lower (underscored (trim p.value.toList)))
  ne_empty : p.name ≠ ""
  not_isBlank : ∀ c ∈ p.name.toList, ¬isBlank c

theorem isNamed_slotName (kind : Kind) (j : Nat) (value : List Char) :
    IsNamed j ⟨kind, slotName kind j value, String.ofList value⟩ where
  quoted := by
    rintro rfl
    rfl
  number := by
    rintro rfl
    rfl
  placeholder := by
    rintro rfl
    rw [String.toList_ofList, ← spelledName_eq]
    split
    · rename_i hempty
      exact slotName_of_not_spelled hempty j
    · rename_i hspelled
      exact slotName_of_spelled hspelled j
  ne_empty := by
    intro hempty
    obtain ⟨c, hlast, -, -⟩ := exists_getLast?_slotName kind j value
    rw [show slotName kind j value = "" from hempty] at hlast
    exact absurd hlast (by simp)
  not_isBlank := fun c => not_isBlank_of_mem_slotName

theorem isNamed_of_parametersAfter_eq {seen : List Kind} {earlier later : List Parameter}
    {p : Parameter} (h : parametersAfter seen segments = earlier ++ p :: later) :
    IsNamed (seen.count p.kind + (earlier.countP fun q => q.kind = p.kind) + 1) p := by
  induction segments generalizing seen earlier with
  | nil => exact absurd h (by simp [parametersAfter])
  | cons segment segments ih =>
    cases segment with
    | literal text => exact ih h
    | slot kind value =>
      rw [parametersAfter] at h
      cases earlier with
      | nil =>
        obtain ⟨rfl, -⟩ := List.cons.inj h
        exact isNamed_slotName kind _ value
      | cons first earlier =>
        obtain ⟨rfl, hrest⟩ := List.cons.inj h
        have hcount : seen.count p.kind +
            ((⟨kind, slotName kind (seen.count kind + 1) value, String.ofList value⟩ ::
              earlier).countP fun q : Parameter => q.kind = p.kind) =
            (kind :: seen).count p.kind + earlier.countP fun q => q.kind = p.kind := by
          simp only [List.countP_cons, List.count_cons, decide_eq_true_eq, beq_iff_eq]
          omega
        rw [hcount]
        exact ih hrest

/-- **Names go by kind and order.** Naming by each search in its turn is naming by place, and of
each kind the `j`-th parameter has the `j`-th name, or the one that it spells. -/
theorem parameters_named_by_kind (text : List Char) :
    parametersInTurn text = parameters (scan text) ∧
    ∀ earlier p later, parameters (scan text) = earlier ++ p :: later →
      IsNamed ((earlier.countP fun q => q.kind = p.kind) + 1) p := by
  refine ⟨parametersInTurn_eq text, fun earlier p later h => ?_⟩
  have hnamed := isNamed_of_parametersAfter_eq h
  rwa [List.count_nil, Nat.zero_add] at hnamed

/-- The third placeholder spells nothing, like the second one, and stands behind a number that is
found after it. -/
theorem parameters_named_by_kind_of_mixed_kinds :
    parameters (scan "\"a\" <Big  word> 7 <> 8 < > \"b\"".toList) =
      [⟨.quoted, "param1", "a"⟩, ⟨.placeholder, "big_word", "Big  word"⟩, ⟨.number, "number1", "7"⟩,
        ⟨.placeholder, "arg2", ""⟩, ⟨.number, "number2", "8"⟩] ++
        ⟨.placeholder, "arg3", " "⟩ :: [⟨.quoted, "param2", "b"⟩] ∧
    IsNamed 3 ⟨.placeholder, "arg3", " "⟩ := by
  have hsplit : parameters (scan "\"a\" <Big  word> 7 <> 8 < > \"b\"".toList) =
      [⟨.quoted, "param1", "a"⟩, ⟨.placeholder, "big_word", "Big  word"⟩, ⟨.number, "number1", "7"⟩,
        ⟨.placeholder, "arg2", ""⟩, ⟨.number, "number2", "8"⟩] ++
        ⟨.placeholder, "arg3", " "⟩ :: [⟨.quoted, "param2", "b"⟩] := by
    decide +kernel
  exact ⟨hsplit, (parameters_named_by_kind _).2 _ _ _ hsplit⟩

end StepGlue.Segment
