import Mathlib.Logic.Function.Iterate
import StepGlue.Proofs.Except
import StepGlue.Proofs.Workspace.Destination

/-!
# Directories are made on the way

Making a directory with all that is missing above it takes nothing away and adds directories on the
way to it only. It goes too deep exactly if a directory is missing at every level that there is room
for.
-/

namespace StepGlue

/-! ### On the way -/

section OnWay

variable [Machine] {p : Path} {place : Location}

/-- Whether a place is one that a path passes if everything on the way is there. -/
def Path.OnWay (p : Path) (place : Location) : Prop :=
  ∃ parts, parts <+: p.parts ∧ place = FileTree.destination [] parts

theorem Path.OnWay.of_parent (h : p.parent.OnWay place) : p.OnWay place := by
  obtain ⟨parts, hparts, hplace⟩ := h
  exact ⟨parts, hparts.trans (List.dropLast_prefix p.parts), hplace⟩

omit [Machine] in
theorem Path.hasNul_parent (h : p.hasNul = false) : p.parent.hasNul = false :=
  List.any_eq_false.mpr fun part hpart =>
    List.any_eq_false.mp h part (List.dropLast_subset p.parts hpart)

end OnWay

namespace FileTree

variable {t t' t'' : FileTree} {place : Location}

/-! ### Trees that have grown -/

/-- Whether a tree has grown out of another one by directories that were missing, all at places of
some kind. -/
structure Grows (made : Location → Prop) (t t' : FileTree) : Prop where
  workingDirectory_eq : t'.workingDirectory = t.workingDirectory
  lookup?_eq : ∀ place, t'.lookup? place = t.lookup? place ∨
    t.lookup? place = none ∧ t'.lookup? place = some .directory ∧ made place

namespace Grows

variable {made made' : Location → Prop}

theorem refl (made : Location → Prop) (t : FileTree) : Grows made t t :=
  ⟨rfl, fun _ => .inl rfl⟩

theorem mono (h : Grows made t t') (hmade : ∀ place, made place → made' place) :
    Grows made' t t' :=
  ⟨h.workingDirectory_eq, fun place => (h.lookup?_eq place).imp_right
    fun ⟨hnone, hdirectory, hplace⟩ => ⟨hnone, hdirectory, hmade place hplace⟩⟩

theorem directory (h : Grows made t t') (hplace : t.lookup? place = some .directory) :
    t'.lookup? place = some .directory := by
  rcases h.lookup?_eq place with heq | ⟨-, hdirectory, -⟩
  · exact heq.trans hplace
  · exact hdirectory

/-- Nothing happens to the files. -/
theorem lookup?_file (h : Grows made t t') (content : FileContent) :
    t'.lookup? place = some (.file content) ↔ t.lookup? place = some (.file content) := by
  rcases h.lookup?_eq place with heq | ⟨hnone, hdirectory, -⟩
  · rw [heq]
  · simp [hnone, hdirectory]

theorem trans (h : Grows made t t') (h' : Grows made t' t'') : Grows made t t'' := by
  refine ⟨h'.workingDirectory_eq.trans h.workingDirectory_eq, fun place => ?_⟩
  rcases h.lookup?_eq place with heq | ⟨hnone, hdirectory, hmade⟩
  · rw [← heq]
    exact h'.lookup?_eq place
  · exact .inr ⟨hnone, h'.directory hdirectory, hmade⟩

end Grows

theorem grows_put_directory {made : Location → Prop}
    (hparent : t.lookup? place.dropLast = some .directory) (hfree : t.lookup? place = none)
    (hmade : made place) : Grows made t (t.put place .directory) := by
  refine ⟨workingDirectory_put t place _, fun other => ?_⟩
  by_cases hother : other = place
  · subst hother
    refine .inr ⟨hfree, ?_, hmade⟩
    cases other with
    | nil => rfl
    | cons name further => exact Listing.lookup?_put_self t.top name further _
  · exact .inl (lookup?_put_of_ne hparent (by simp [hfree]) hother)

variable [Machine] {p : Path} {room : Nat} {e : Failure}

/-! ### What is made -/

theorem grows_makeDirectory (hp : p.isAbsolute) (h : t.makeDirectory p = .ok t') :
    Grows p.OnWay t t' := by
  rw [makeDirectory] at h
  split at h
  · cases h
  · split at h
    · cases h
    · rename_i place hlocate
      split at h
      · cases h
      · rename_i hfree
        obtain rfl := Except.ok.inj h
        have hplace := eq_placeOf_of_locate hlocate
        rw [placeOf, if_pos hp] at hplace
        exact grows_put_directory (lookup?_dropLast_of_locate hp hlocate)
          (Option.not_isSome_iff_eq_none.mp hfree) ⟨p.parts, List.prefix_rfl, hplace⟩

theorem grows_ensureDirectory (hp : p.isAbsolute) (h : t.ensureDirectory p = .ok t') :
    Grows p.OnWay t t' := by
  rw [ensureDirectory] at h
  split at h
  · rename_i hmake
    exact grows_makeDirectory hp (Except.ok.inj h ▸ hmake)
  · obtain ⟨isThere, -, h⟩ := bind_eq_ok_iff.mp h
    split at h
    · obtain rfl := Except.ok.inj h
      exact .refl _ t
    · cases h

/-- Whether it succeeds or not, what was made is on the way. -/
theorem grows_ensureWithin (hp : p.isAbsolute) (room : Nat) :
    Grows p.OnWay t (t.ensureWithin p room).2 := by
  induction room generalizing p with
  | zero => exact .refl _ t
  | succ room ih =>
    rw [ensureWithin]
    split
    · rename_i hfirst
      exact grows_ensureDirectory hp hfirst
    · split
      · have habove : Grows p.OnWay t (t.ensureWithin p.parent room).2 :=
          (ih (p := p.parent) hp).mono fun _ => Path.OnWay.of_parent
        split
        · rename_i hwithin
          rw [hwithin] at habove
          exact habove
        · rename_i hwithin
          rw [hwithin] at habove
          split
          · rename_i hsecond
            exact habove.trans (grows_ensureDirectory hp hsecond)
          · exact habove
      · exact .refl _ t

theorem grows_ensureDirectories (hp : p.isAbsolute) :
    Grows p.OnWay t (t.ensureDirectories p).2 :=
  grows_ensureWithin hp (Machine.newDirectories + 1)

/-! ### How deep it goes -/

theorem ne_nil_of_locate_notFound (h : t.locate p = .error .notFound) : p.parts ≠ [] := by
  intro hparts
  rw [locate, hparts] at h
  split at h <;> cases h

theorem ensureDirectory_of_notFound (hnul : p.hasNul = false)
    (h : t.locate p = .error .notFound) : t.ensureDirectory p = refuse .notFound p := by
  rw [ensureDirectory, makeDirectory, isDirectory, find?, hnul, h]
  rfl

/-- A directory that is not made is refused, and it is not found only if something above it is
missing. -/
theorem exists_cause_of_ensureDirectory (hnul : p.hasNul = false)
    (h : t.ensureDirectory p = .error e) :
    ∃ cause, e = .file { cause, path := p.toString } ∧
      (cause = .notFound ↔ t.locate p = .error .notFound) := by
  rw [ensureDirectory, makeDirectory, isDirectory, find?, hnul] at h
  cases hlocate : t.locate p with
  | error cause =>
    rw [hlocate] at h
    refine ⟨cause, ?_, by simp⟩
    cases cause <;> exact (Except.error.inj h).symm
  | ok place =>
    rw [hlocate] at h
    refine ⟨.alreadyExists, ?_, by simp⟩
    dsimp only at h
    cases hthere : t.lookup? place with
    | none =>
      rw [hthere] at h
      cases h
    | some entry =>
      rw [hthere] at h
      cases entry with
      | file content => exact (Except.error.inj h).symm
      | directory => cases h

/-- Making directories goes too deep exactly if there is no room for all that are missing. -/
theorem ensureWithin_eq_tooDeep_iff (hnul : p.hasNul = false) :
    (t.ensureWithin p room).1 = .error (.tooDeep .descending) ↔
      ∀ n < room, t.locate (Path.parent^[n] p) = .error .notFound := by
  induction room generalizing p with
  | zero => simp [ensureWithin]
  | succ room ih =>
    rw [Nat.forall_lt_succ_left, Function.iterate_zero_apply]
    simp only [Function.iterate_succ_apply]
    rw [← ih (Path.hasNul_parent hnul), ensureWithin]
    by_cases hmissing : t.locate p = .error .notFound
    · have hparts : p.parts.isEmpty = false := by simpa using ne_nil_of_locate_notFound hmissing
      rw [ensureDirectory_of_notFound hnul hmissing]
      simp only [refuse, isNotFound, hparts, hmissing, true_and]
      rcases t.ensureWithin p.parent room with ⟨above, t'⟩
      cases above with
      | error e => rfl
      | ok _ =>
        -- the second try makes one directory, which never goes too deep
        cases hsecond : t'.ensureDirectory p with
        | ok t'' => simp [hsecond]
        | error e =>
          obtain ⟨cause, rfl, -⟩ := exists_cause_of_ensureDirectory hnul hsecond
          simp [hsecond]
    · refine iff_of_false (fun htooDeep => ?_) fun h => hmissing h.1
      cases hfirst : t.ensureDirectory p with
      | ok t' =>
        rw [hfirst] at htooDeep
        cases htooDeep
      | error e =>
        obtain ⟨cause, rfl, hcause⟩ := exists_cause_of_ensureDirectory hnul hfirst
        simp [hfirst, isNotFound, mt hcause.mp hmissing] at htooDeep

end FileTree

end StepGlue
