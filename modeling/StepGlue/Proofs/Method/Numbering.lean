import StepGlue.Proofs.Method.Registry

/-!
# The least free number

A registry remembers for a name where its last search ended, and searches on from there. No number
before that is free, whatever names were given out in between, so the names are those of the plain
rule, which looks for the least free number anew each time.
-/

namespace StepGlue.Registry

variable {used given : List String} {base name : String}

/-! ### The rule -/

/-- The least number from one on that makes a name outside `used`. -/
structure IsLeastFree (used : List String) (base : String) (k : Nat) : Prop where
  one_le : 1 ≤ k
  free : base ++ toString k ∉ used
  taken : ∀ j, 1 ≤ j → j < k → base ++ toString j ∈ used

/-- The plain rule for the name that follows those that were given out: the base itself unless it
is taken, and then the base with the least number that makes it free. -/
def IsNextName (given : List String) (base name : String) : Prop :=
  (base ∉ given ∧ name = base) ∨
    (base ∈ given ∧ ∃ k, IsLeastFree given base k ∧ name = base ++ toString k)

/-- The order in which names were given out plays no part. -/
theorem IsLeastFree.of_mem_iff {other : List String} {k : Nat} (h : IsLeastFree used base k)
    (hmem : ∀ x, x ∈ used ↔ x ∈ other) : IsLeastFree other base k where
  one_le := h.one_le
  free hother := h.free ((hmem _).mpr hother)
  taken j hj hlt := (hmem _).mp (h.taken j hj hlt)

theorem IsNextName.of_mem_iff {other : List String} (h : IsNextName given base name)
    (hmem : ∀ x, x ∈ given ↔ x ∈ other) : IsNextName other base name := by
  rcases h with ⟨hfree, hname⟩ | ⟨htaken, k, hk, hname⟩
  · exact .inl ⟨fun hother => hfree ((hmem base).mpr hother), hname⟩
  · exact .inr ⟨(hmem base).mp htaken, k, hk.of_mem_iff hmem, hname⟩

/-! ### One name -/

/-- A registry whose searches pass over numbers only that are taken. -/
structure SkipsTaken (r : Registry) : Prop where
  one_le_start : ∀ base, 1 ≤ r.start base
  taken : ∀ base j, 1 ≤ j → j < r.start base → base ++ toString j ∈ r.used

theorem skipsTaken_empty : empty.SkipsTaken where
  one_le_start _ := Nat.le_refl 1
  taken _ _ hj hlt := absurd hlt (Nat.not_lt.mpr hj)

variable {r : Registry}

/-- A search from the remembered number on ends at the least free one. -/
theorem SkipsTaken.isLeastFree (h : r.SkipsTaken) {k : Nat}
    (hk : SearchEnds r.used base (r.start base) k) : IsLeastFree r.used base k where
  one_le := Nat.le_trans (h.one_le_start base) hk.le
  free := hk.not_mem
  taken j hj hlt := by
    by_cases hstart : j < r.start base
    · exact h.taken base j hj hstart
    · exact hk.mem_of_lt (Nat.not_lt.mp hstart) hlt

theorem SkipsTaken.isNextName (h : r.SkipsTaken) (base : String) :
    IsNextName r.used base (r.reserve base).1 := by
  by_cases htaken : base ∈ r.used
  · obtain ⟨k, hk, heq⟩ := reserve_of_mem htaken
    exact .inr ⟨htaken, k, h.isLeastFree hk, by rw [heq]⟩
  · exact .inl ⟨htaken, by rw [reserve_of_not_mem htaken]⟩

/-- Only the search of the base itself starts later than before, right after its new name. -/
theorem start_reserve_of_mem {k : Nat} (base other : String) :
    start { used := name :: r.used, nextSuffix := (base, k) :: r.nextSuffix } other =
      if other = base then k else r.start other := by
  rw [start, List.lookup_cons]
  by_cases heq : other = base
  · simp [heq]
  · rw [if_neg heq, beq_false_of_ne heq, start]

theorem SkipsTaken.reserve (h : r.SkipsTaken) (base : String) : (r.reserve base).2.SkipsTaken := by
  by_cases htaken : base ∈ r.used
  · obtain ⟨k, hk, heq⟩ := reserve_of_mem htaken
    have hleast := h.isLeastFree hk
    rw [heq]
    constructor
    · intro other
      rw [start_reserve_of_mem]
      split
      · omega
      · exact h.one_le_start other
    · intro other j hj hlt
      rw [start_reserve_of_mem] at hlt
      rw [List.mem_cons]
      split at hlt
      · rename_i hother
        subst hother
        -- of the numbers passed over, only the one just given out was free before
        rcases Nat.lt_succ_iff_lt_or_eq.mp hlt with hbefore | rfl
        · exact .inr (hleast.taken j hj hbefore)
        · exact .inl rfl
      · exact .inr (h.taken other j hj hlt)
  · rw [reserve_of_not_mem htaken]
    exact ⟨h.one_le_start, fun other j hj hlt => List.mem_cons_of_mem _ (h.taken other j hj hlt)⟩

/-! ### Names in turn -/

/-- The names given out for some bases in turn, and the registry after them. -/
def reserveAll (r : Registry) : List String → List String × Registry
  | [] => ([], r)
  | base :: bases =>
    ((r.reserve base).1 :: ((r.reserve base).2.reserveAll bases).1,
      ((r.reserve base).2.reserveAll bases).2)

variable {bases : List String}

theorem length_reserveAll (r : Registry) (bases : List String) :
    (r.reserveAll bases).1.length = bases.length := by
  induction bases generalizing r with
  | nil => rfl
  | cons base bases ih => rw [reserveAll, List.length_cons, ih, List.length_cons]

theorem mem_used_reserveAll :
    name ∈ (r.reserveAll bases).2.used ↔ name ∈ r.used ∨ name ∈ (r.reserveAll bases).1 := by
  induction bases generalizing r with
  | nil => simp [reserveAll]
  | cons base bases ih =>
    rw [reserveAll, ih, used_reserve, List.mem_cons, List.mem_cons]
    tauto

theorem mem_used_reserveAll_empty :
    name ∈ (empty.reserveAll bases).2.used ↔ name ∈ (empty.reserveAll bases).1 := by
  rw [mem_used_reserveAll]
  simp [empty]

theorem not_mem_used_of_mem_reserveAll (h : name ∈ (r.reserveAll bases).1) : name ∉ r.used := by
  induction bases generalizing r with
  | nil => exact absurd h (by simp [reserveAll])
  | cons base bases ih =>
    rw [reserveAll, List.mem_cons] at h
    rcases h with rfl | h
    · exact r.reserve_fst_not_mem base
    · have hused := ih h
      rw [used_reserve, List.mem_cons, not_or] at hused
      exact hused.2

/-- Each name is taken out of those that are free for the bases after it. -/
theorem nodup_reserveAll (r : Registry) (bases : List String) : (r.reserveAll bases).1.Nodup := by
  induction bases generalizing r with
  | nil => simp [reserveAll]
  | cons base bases ih =>
    rw [reserveAll, List.nodup_cons]
    refine ⟨fun hmem => ?_, ih _⟩
    have hused := not_mem_used_of_mem_reserveAll hmem
    rw [used_reserve, List.mem_cons, not_or] at hused
    exact hused.1 rfl

theorem SkipsTaken.isNextName_reserveAll (h : r.SkipsTaken) {i : Nat}
    (hbase : bases[i]? = some base) (hname : (r.reserveAll bases).1[i]? = some name) :
    IsNextName (r.used ++ (r.reserveAll bases).1.take i) base name := by
  induction bases generalizing r i with
  | nil => exact absurd hbase (by simp)
  | cons first bases ih =>
    rw [reserveAll] at hname ⊢
    cases i with
    | zero =>
      obtain rfl : first = base := by simpa using hbase
      obtain rfl : (r.reserve first).1 = name := by simpa using hname
      simpa using h.isNextName first
    | succ i =>
      rw [List.getElem?_cons_succ] at hbase hname
      refine (ih (h.reserve first) hbase hname).of_mem_iff fun x => ?_
      rw [used_reserve, List.take_succ_cons]
      exact List.perm_middle.symm.mem_iff

theorem SkipsTaken.reserveAll (h : r.SkipsTaken) (bases : List String) :
    (r.reserveAll bases).2.SkipsTaken := by
  induction bases generalizing r with
  | nil => exact h
  | cons base bases ih => exact ih (h.reserve base)

/-- What a new registry does for some bases in turn. -/
structure GivesOutByRule (bases names : List String) (r : Registry) : Prop where
  length : names.length = bases.length
  rule : ∀ i base name, bases[i]? = some base → names[i]? = some name →
    IsNextName (names.take i) base name
  distinct : names.Nodup
  contains : ∀ name, r.contains name ↔ name ∈ names
  /-- A search from the remembered number on ends, at the least free number of all. -/
  ends : ∀ base, ∃ k, SearchEnds r.used base (r.start base) k ∧ IsLeastFree names base k

/-- A new registry follows the plain rule for any bases, one after the other. -/
theorem givesOutByRule_reserveAll (bases : List String) :
    GivesOutByRule bases (empty.reserveAll bases).1 (empty.reserveAll bases).2 where
  length := length_reserveAll empty bases
  rule i base name hbase hname := by
    simpa [empty] using skipsTaken_empty.isNextName_reserveAll hbase hname
  distinct := nodup_reserveAll empty bases
  contains name := by rw [contains_iff, mem_used_reserveAll_empty]
  ends base := by
    have hsearch := searchEnds_freeSuffix (empty.reserveAll bases).2.used base
      ((empty.reserveAll bases).2.start base)
    have hleast := (skipsTaken_empty.reserveAll bases).isLeastFree hsearch
    exact ⟨_, hsearch, hleast.of_mem_iff fun _ => mem_used_reserveAll_empty⟩

example : (empty.reserveAll ["openPage1", "openPage", "openPage", "openPage1"]).1 =
    ["openPage1", "openPage", "openPage2", "openPage11"] := by
  decide +kernel

end StepGlue.Registry
