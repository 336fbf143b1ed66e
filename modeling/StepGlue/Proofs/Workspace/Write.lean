import StepGlue.Proofs.Workspace.Growth
import StepGlue.Proofs.Workspace.Plain

/-!
# What writing a file changes

A file that was written below a root holds its text, and besides it only directories above it are
new. If the file system or the root refuses it, no file has changed. What else keeps a file from
being written is in its path, in its text, or too many missing directories (`Workspace.Hinders`).
-/

namespace StepGlue

open Text

variable [Machine]

namespace FileTree

variable {t t' : FileTree} {place other : Location} {p : Path} {e : Failure}

/-- Whether a tree has gained a file of a text, together with directories above it that were
missing. -/
structure HasGained (t t' : FileTree) (file : Location) (text : String) : Prop where
  not_directory : t.lookup? file ≠ some .directory
  lookup?_file : t'.lookup? file = some (.file (.text text))
  lookup?_other : ∀ other, other ≠ file → t'.lookup? other = t.lookup? other ∨
    t.lookup? other = none ∧ t'.lookup? other = some .directory ∧ other <+: file

/-- Without double dots the parts of a path lead down one after the other. -/
theorem destination_eq_append (start : Location) {parts : List String}
    (h : ∀ part ∈ parts, part ≠ "..") :
    destination start parts = start ++ parts.map EscapedBytes.canonical := by
  induction parts generalizing start with
  | nil => exact (List.append_nil start).symm
  | cons part rest ih =>
    rw [List.forall_mem_cons] at h
    rw [destination, List.foldl_cons, if_neg h.1, ← destination, ih _ h.2, List.append_assoc]
    rfl

theorem placeOf_toPath (t : FileTree) (h : place.IsResolved) :
    t.placeOf place.toPath = place.map EscapedBytes.canonical :=
  destination_eq_append [] fun name hname => (h name hname).2.2

theorem isPrefix_of_onWay_parent (h : place.IsResolved) (hother : place.toPath.parent.OnWay other) :
    other <+: place.map EscapedBytes.canonical := by
  obtain ⟨parts, hparts, rfl⟩ := hother
  have habove : parts <+: place := hparts.trans (List.dropLast_prefix place)
  rw [destination_eq_append [] fun name hname => (h name (habove.subset hname)).2.2]
  exact habove.map _

/-- A file that is put where directories have been made on the way. -/
theorem Grows.hasGained (hgrows : Grows place.toPath.parent.OnWay t t') (hplace : place.IsResolved)
    {file : Location} (hfile : t'.filePlace place.toPath = .ok file) (text : String) :
    HasGained t (t'.put file (.file (.text text))) (place.map EscapedBytes.canonical) text := by
  have hpath := isFilePath_of_filePlace hfile
  obtain rfl : file = place.map EscapedBytes.canonical :=
    (eq_placeOf_of_locate hpath.locate_eq).trans (placeOf_toPath t' hplace)
  refine ⟨fun hdirectory => hpath.not_directory (hgrows.directory hdirectory),
    lookup?_put_file hpath.not_directory, fun other hother => ?_⟩
  have hparent := lookup?_dropLast_of_locate rfl hpath.locate_eq
  rw [lookup?_put_of_ne hparent hpath.not_directory hother]
  exact (hgrows.lookup?_eq other).imp_right fun ⟨hnone, hdirectory, hway⟩ =>
    ⟨hnone, hdirectory, isPrefix_of_onWay_parent hplace hway⟩

theorem refusesFile_of_filePlace (hnul : p.hasNul = false) (h : t.filePlace p = .error e) :
    e.refusesFile := by
  rw [filePlace, hnul, if_neg Bool.false_ne_true] at h
  split at h
  · exact Except.error.inj h ▸ rfl
  · split at h
    · exact Except.error.inj h ▸ rfl
    · cases h

end FileTree

namespace Workspace

variable {w : Workspace} {t t' : FileTree} {path text : String} {place : Location} {e : Failure}

/-- Whether a workspace is one at some path, seen from the working directory of some tree. -/
def IsProject (w : Workspace) : Prop :=
  ∃ t rootPath, Location.IsResolved t.workingDirectory ∧ Location.HasNoNul t.workingDirectory ∧
    ofPath t rootPath = .ok w

theorem IsProject.isResolved_root (h : w.IsProject) : w.root.IsResolved := by
  obtain ⟨t, rootPath, hresolved, -, hroot⟩ := h
  exact Workspace.isResolved_root hresolved hroot

theorem IsProject.hasNoNul_root (h : w.IsProject) : w.root.HasNoNul := by
  obtain ⟨t, rootPath, -, hnul, hroot⟩ := h
  exact Workspace.hasNoNul_root hnul hroot

/-! ### The place of a file -/

theorem IsProject.isResolved_of_writablePlace (hproject : w.IsProject)
    (h : w.writablePlace path = .ok place) : place.IsResolved := by
  obtain ⟨-, rfl⟩ := eq_walkAlong_of_writablePlace h
  exact hproject.isResolved_root.walkAlong _

theorem IsProject.hasNul_of_writablePlace (hproject : w.IsProject)
    (h : w.writablePlace path = .ok place) : place.toPath.hasNul = false := by
  obtain ⟨hnul, rfl⟩ := eq_walkAlong_of_writablePlace h
  exact (hproject.hasNoNul_root.walkAlong hnul).hasNul_toPath

/-! ### What is written -/

theorem grows_of_ensureDirectories {made : Except Failure Unit}
    (h : t.ensureDirectories place.toPath.parent = (made, t')) :
    FileTree.Grows place.toPath.parent.OnWay t t' := by
  have hgrows := FileTree.grows_ensureDirectories (t := t) (p := place.toPath.parent) rfl
  rw [h] at hgrows
  exact hgrows

/-- A file that was written is found with its text, and nothing else happened but that missing
directories above it were made. -/
theorem IsProject.hasGained_of_write (hproject : w.IsProject) {written : String}
    (h : w.write t path text true = (.ok written, t')) :
    ∃ place, w.writablePlace path = .ok place ∧
      t'.find? place.toPath = .ok (some (.file (.text text))) ∧
      t.HasGained t' (place.map EscapedBytes.canonical) text := by
  have hends := w.writeEnds t path text
  rw [h] at hends
  cases hends with
  | written hplace hmade hfile htext =>
    have hpath := FileTree.isFilePath_of_filePlace hfile
    refine ⟨_, hplace, ?_, (grows_of_ensureDirectories hmade).hasGained
      (hproject.isResolved_of_writablePlace hplace) hfile text⟩
    rw [(hpath.put_file _).find?_eq, FileTree.lookup?_put_file hpath.not_directory]

/-- A file that is refused leaves all files as they are. -/
theorem lookup?_file_of_write (h : w.write t path text true = (.error e, t')) (he : e.refusesFile)
    (other : Location) (content : FileContent) :
    t'.lookup? other = some (.file content) ↔ t.lookup? other = some (.file content) := by
  have hends := w.writeEnds t path text
  rw [h] at hends
  cases hends with
  | unplaced => rfl
  | unmade _ hmade => exact (grows_of_ensureDirectories hmade).lookup?_file content
  | unwritable _ hmade => exact (grows_of_ensureDirectories hmade).lookup?_file content
  | emptied => cases he

/-! ### What is neither written nor refused -/

/-- What keeps a file from being written without the root or the file system refusing it: a
character that cannot stand in the name of a file, more directories missing above it than are made
at once, or a text without a form in UTF-8 where a file would be written. -/
inductive Hinders (w : Workspace) (t : FileTree) (path text : String) : Prop
  | character (hname : ¬IsFileName path.toList)
  | nul (hnul : '\x00' ∈ path.toList)
  | depth {place : Location} (hplace : w.writablePlace path = .ok place)
      (hmissing : ∀ n ≤ Machine.newDirectories,
        t.locate (Path.parent^[n] place.toPath.parent) = .error .notFound)
  | text (htext : ¬isEncodable text)
      (hwritten : ∃ written, (w.write t path "" true).1 = .ok written)

theorem IsProject.hinders_of_write (hproject : w.IsProject)
    (h : (w.write t path text true).1 = .error e) (hrefuses : e.refusesFile = false) :
    w.Hinders t path text := by
  have hends := w.writeEnds t path text
  generalize w.write t path text true = run at h hends
  cases hends with
  | unplaced hplace =>
    obtain rfl := Except.error.inj h
    have hpath := exists_writablePlace_error_iff.mp ⟨_, hplace, hrefuses⟩
    by_cases hname : IsFileName path.toList
    · exact .nul (by_contra fun hnul => hpath ⟨hname, hnul⟩)
    · exact .character hname
  | unmade hplace hmade =>
    obtain rfl := Except.error.inj h
    have hnul := Path.hasNul_parent (hproject.hasNul_of_writablePlace hplace)
    cases FileTree.isAt_of_ensureWithin hmade with
    | file => cases hrefuses
    | nulInPath hmem => cases hnul.symm.trans hmem
    | tooDeep =>
      exact .depth hplace fun n hn =>
        (FileTree.ensureWithin_eq_tooDeep_iff hnul).mp (congrArg Prod.fst hmade) n
          (Nat.lt_succ_of_le hn)
  | unwritable hplace _ hfile =>
    obtain rfl := Except.error.inj h
    have hrefused :=
      FileTree.refusesFile_of_filePlace (hproject.hasNul_of_writablePlace hplace) hfile
    cases hrefuses.symm.trans hrefused
  | emptied hplace hmade hfile htext =>
    have hwritten : w.write t path "" true = _ := write_of_made hplace hmade
    rw [(FileTree.isFilePath_of_filePlace hfile).writeText_of_isEncodable rfl] at hwritten
    exact .text htext ⟨_, congrArg Prod.fst hwritten⟩
  | written => cases h

theorem IsProject.exists_error_of_hinders (hproject : w.IsProject) (h : w.Hinders t path text) :
    ∃ e, (w.write t path text true).1 = .error e ∧ e.refusesFile = false := by
  have hunplaced : ¬(IsFileName path.toList ∧ '\x00' ∉ path.toList) →
      ∃ e, (w.write t path text true).1 = .error e ∧ e.refusesFile = false := by
    intro hpath
    obtain ⟨e, hplace, hrefuses⟩ := (exists_writablePlace_error_iff (w := w)).mpr hpath
    exact ⟨e, by rw [write, hplace], hrefuses⟩
  cases h with
  | character hname => exact hunplaced fun hpath => hname hpath.1
  | nul hnul => exact hunplaced fun hpath => hpath.2 hnul
  | depth hplace hmissing =>
    have hnul := Path.hasNul_parent (hproject.hasNul_of_writablePlace hplace)
    have hdeep := (FileTree.ensureWithin_eq_tooDeep_iff hnul).mpr fun n hn =>
      hmissing n (Nat.le_of_lt_succ hn)
    rcases hmade : t.ensureDirectories _ with ⟨made, t'⟩
    rw [← FileTree.ensureDirectories, hmade] at hdeep
    obtain rfl : made = .error (.tooDeep .descending) := hdeep
    exact ⟨_, by rw [write_of_unmade hplace hmade], rfl⟩
  | text htext hwritten =>
    obtain ⟨written, hwritten⟩ := hwritten
    have hends := w.writeEnds t path ""
    generalize w.write t path "" true = run at hwritten hends
    cases hends with
    | unplaced | unmade | unwritable | emptied => cases hwritten
    | written hplace hmade hfile =>
      obtain ⟨u, hwrite⟩ :=
        (FileTree.isFilePath_of_filePlace hfile).exists_writeText_of_not_isEncodable htext
      exact ⟨.unencodable u, by rw [write_of_made hplace hmade, hwrite]; rfl, rfl⟩

theorem IsProject.exists_error_iff_hinders (hproject : w.IsProject) :
    (∃ e, (w.write t path text true).1 = .error e ∧ e.refusesFile = false) ↔
      w.Hinders t path text :=
  ⟨fun ⟨_, hfails, hrefuses⟩ => hproject.hinders_of_write hfails hrefuses,
    hproject.exists_error_of_hinders⟩

end Workspace

end StepGlue
