import StepGlue.Proofs.Workspace.Failure
import StepGlue.Proofs.Workspace.Root

/-!
# Files that nothing but the file system refuses

Null characters in the names on the way to a file, and characters without a form in UTF-8, make
writing the file fail with a value that is rejected. Without them a file is written, or it is
refused, or there are too many levels of directories above it.
-/

namespace StepGlue

open Text

variable {e : Failure}

theorem Failure.IsAt.rejectsValue_eq {p : Path} (h : IsAt p e) (hnul : p.hasNul = false) :
    e.rejectsValue = false := by
  cases h with
  | file error => rfl
  | nulInPath hmem => cases hnul.symm.trans hmem
  | tooDeep => rfl

/-! ### Names on the way to a place -/

namespace Location

variable {place : Location}

/-- Whether no name on the way has a null character. -/
def HasNoNul (place : Location) : Prop :=
  ∀ name ∈ place, '\x00' ∉ name.toList

theorem HasNoNul.hasNul_toPath (h : place.HasNoNul) : place.toPath.hasNul = false := by
  simp only [Path.hasNul, toPath, List.any_eq_false]
  exact fun name hname => by simpa using h name hname

theorem HasNoNul.enter (h : place.HasNoNul) {name : List Char} (hname : '\x00' ∉ name) :
    (place.enter name).HasNoNul := by
  rw [Location.enter]
  split
  · exact h
  · split
    · exact fun other hother => h other (List.dropLast_subset place hother)
    · intro other hother
      rcases List.mem_append.mp hother with hother | hother
      · exact h other hother
      · rw [List.mem_singleton.mp hother, String.toList_ofList]
        exact hname

theorem HasNoNul.walkAlong (h : place.HasNoNul) {text : List Char} (htext : '\x00' ∉ text) :
    (place.walkAlong text).HasNoNul := by
  refine List.foldlRecOn _ _ h fun _ hplace name hname => hplace.enter fun hmem => htext ?_
  exact (exists_mem_splitOn_iff (by decide)).mp ⟨name, hname, hmem⟩

end Location

/-! ### Writing below a root -/

variable [Machine]

namespace Workspace

variable {w : Workspace} {t : FileTree} {path text rootPath : String} {place : Location}

/-- What keeps a part from being looked at does not depend on what stands before it. -/
theorem isNone_partObstacle? (lead : Nat) (part : String) :
    (partObstacle? lead part).isNone = (partObstacle? 0 part).isNone := by
  simp only [partObstacle?]
  cases Charset.fileName.unencodable? part <;> rfl

theorem partObstacle?_of_obstacle? {start : Path} {parts : List String}
    (h : obstacle? start parts = none) : ∀ part ∈ parts, partObstacle? 0 part = none := by
  let isPassed (part : String) : Bool := (partObstacle? 0 part).isNone
  have hsplit : parts.drop (parts.takeWhile isPassed).length = parts.dropWhile isPassed :=
    calc parts.drop (parts.takeWhile isPassed).length
      _ = (parts.takeWhile isPassed ++ parts.dropWhile isPassed).drop
          (parts.takeWhile isPassed).length := by rw [List.takeWhile_append_dropWhile]
      _ = parts.dropWhile isPassed := List.drop_left
  have hfirst := List.head?_dropWhile_not isPassed parts
  rw [obstacle?, hsplit] at h
  cases hrest : parts.dropWhile isPassed with
  | nil =>
    intro part hpart
    exact Option.isNone_iff_eq_none.mp (List.dropWhile_eq_nil_iff.mp hrest part hpart)
  | cons first rest =>
    rw [hrest] at h hfirst
    have hpassed : isPassed first = true :=
      (isNone_partObstacle? _ first).symm.trans (Option.isNone_iff_eq_none.mpr h)
    cases hpassed.symm.trans hfirst

theorem nul_notMem_of_partObstacle? {part : String} (h : partObstacle? 0 part = none) :
    '\x00' ∉ part.toList := by
  rw [partObstacle?] at h
  split at h
  · cases h
  · split at h
    · cases h
    · rename_i hnul
      simpa using hnul

/-- Nothing is in the way of parts exactly if all of them can be names of files. -/
theorem obstacle?_eq_none_iff {start : Path} {parts : List String} :
    obstacle? start parts = none ↔
      ∀ part ∈ parts, IsFileName part.toList ∧ '\x00' ∉ part.toList := by
  constructor
  · intro h part hpart
    have hpassed := partObstacle?_of_obstacle? h part hpart
    refine ⟨?_, nul_notMem_of_partObstacle? hpassed⟩
    by_contra hname
    obtain ⟨u, hobstacle⟩ : ∃ u, partObstacle? 0 part = some (.unencodable u) :=
      exists_partObstacle? hname
    cases hpassed.symm.trans hobstacle
  · exact fun h => obstacle?_eq_none (fun part hpart => (h part hpart).1)
      fun part hpart => (h part hpart).2

theorem obstacle?_eq_none_iff_path (start : Path) :
    obstacle? start (Path.partsOf (relativePart path)) = none ↔
      IsFileName path.toList ∧ '\x00' ∉ path.toList := by
  have hnul : (∀ part ∈ Path.partsOf (relativePart path), ∀ c ∈ part.toList, c ≠ '\x00') ↔
      ∀ c ∈ relativePart path, c ≠ '\x00' := forall_mem_partsOf_iff (by decide) (by decide)
  simp only [List.forall_mem_ne'] at hnul
  rw [obstacle?_eq_none_iff, forall₂_and, isFileName_partsOf_iff, hnul,
    isFileName_relativePart_iff, nul_mem_relativePart_iff]

/-- A path whose characters can all stand in the name of a file has a place, or it is refused. -/
theorem exists_writablePlace_error_iff :
    (∃ e, w.writablePlace path = .error e ∧ e.refusesFile = false) ↔
      ¬(IsFileName path.toList ∧ '\x00' ∉ path.toList) := by
  rw [← obstacle?_eq_none_iff_path w.root.toPath, writablePlace]
  cases hobstacle : obstacle? w.root.toPath (Path.partsOf (relativePart path)) with
  | some e =>
    refine iff_of_true ⟨e, rfl, ?_⟩ (Option.some_ne_none e)
    rcases eq_of_obstacle? hobstacle with rfl | ⟨u, rfl⟩
    · rfl
    · rfl
  | none =>
    dsimp only
    rw [resolve_eq_of_nul_notMem w ((obstacle?_eq_none_iff_path _).mp hobstacle).2]
    refine iff_of_false ?_ (not_not_intro rfl)
    rintro ⟨e, hfails, hrefuses⟩
    split at hfails
    · obtain rfl := Except.error.inj hfails
      cases hrefuses
    · split at hfails
      · cases hfails
      · obtain rfl := Except.error.inj hfails
        cases hrefuses

theorem eq_walkAlong_of_writablePlace (h : w.writablePlace path = .ok place) :
    '\x00' ∉ relativePart path ∧ place = w.root.walkAlong (relativePart path) := by
  rw [writablePlace] at h
  split at h
  · cases h
  · rename_i hobstacle
    have hnul := ((obstacle?_eq_none_iff_path _).mp hobstacle).2
    rw [resolve_eq_of_nul_notMem w hnul] at h
    refine ⟨nul_mem_relativePart_iff.not.mpr hnul, ?_⟩
    split at h
    · cases h
    · split at h
      · exact (Except.ok.inj h).symm
      · cases h

omit [Machine] in
theorem hasNoNul_walk {place : Location} {parts : List String} (h : place.HasNoNul)
    (hparts : ∀ part ∈ parts, '\x00' ∉ part.toList) : Location.HasNoNul (walk place parts) := by
  refine List.foldlRecOn _ _ h fun current hcurrent part hpart => ?_
  split
  · exact fun name hname => hcurrent name (List.dropLast_subset current hname)
  · exact List.forall_mem_append.mpr
      ⟨hcurrent, List.forall_mem_singleton.mpr (hparts part hpart)⟩

theorem hasNoNul_root (hworking : Location.HasNoNul t.workingDirectory)
    (h : ofPath t rootPath = .ok w) : w.root.HasNoNul := by
  rw [ofPath] at h
  split at h
  · cases h
  · rename_i hobstacle
    obtain rfl := Except.ok.inj h
    apply hasNoNul_walk
    · split
      · exact fun name hname => absurd hname List.not_mem_nil
      · exact hworking
    · exact fun part hpart =>
        nul_notMem_of_partObstacle? (partObstacle?_of_obstacle? hobstacle part hpart)

theorem rejectsValue_of_write (hroot : w.root.HasNoNul) (hname : IsFileName path.toList)
    (hnul : '\x00' ∉ path.toList) (htext : Text.isEncodable text)
    (h : (w.write t path text true).1 = .error e) : e.refusesFile ∨ e.rejectsValue = false := by
  rcases cases_of_write h with hfails | ⟨place, hfound, hat⟩ | ⟨hbad, -⟩
  · refine .inl (by_contra fun hrefuses => ?_)
    exact exists_writablePlace_error_iff.mp ⟨e, hfails, by simpa using hrefuses⟩ ⟨hname, hnul⟩
  · obtain ⟨hpartNul, rfl⟩ := eq_walkAlong_of_writablePlace hfound
    exact .inr (hat.rejectsValue_eq (hroot.walkAlong hpartNul).hasNul_toPath)
  · exact absurd htext hbad

end Workspace

theorem Host.rejectsValue_of_writeFile {h : Host} {t : FileTree} {path text : String}
    (hroot : ∀ w, h.workspace = some w → w.root.HasNoNul) (hname : Workspace.IsFileName path.toList)
    (hnul : '\x00' ∉ path.toList) (htext : Text.isEncodable text)
    (hwrite : (h.writeFile t path text).1 = .error e) : e.rejectsValue = false := by
  obtain ⟨w, hw, hfails, hrefuses⟩ := writeFile_eq_error_iff.mp hwrite
  rcases Workspace.rejectsValue_of_write (hroot w hw) hname hnul htext hfails with
    hrefused | hrejects
  · cases hrefuses.symm.trans hrefused
  · exact hrejects

end StepGlue
