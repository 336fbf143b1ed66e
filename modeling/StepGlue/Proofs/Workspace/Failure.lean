import StepGlue.Editor.Host
import StepGlue.Proofs.Workspace.FileTree

/-!
# Why a file is not written

Writing a file below a workspace fails for a few reasons only. A host notes those that come from the
file system or the workspace; the others stop the command.
-/

namespace StepGlue

/-- Whether a failure is one of those that writing a file ends in. -/
inductive Failure.IsOfWriting : Failure → Prop
  | refused {e : Failure} (h : e.refusesFile) : IsOfWriting e
  | nulInPath : IsOfWriting .nulInPath
  | unencodable (u : Text.Unencodable) : IsOfWriting (.unencodable u)
  | tooDeep : IsOfWriting (.tooDeep .descending)

/-- Whether a failure is one of those that directories and files at a path end in. -/
inductive Failure.IsAt (p : Path) : Failure → Prop
  | file (error : FileError) : IsAt p (.file error)
  | nulInPath (hnul : p.hasNul) : IsAt p .nulInPath
  | tooDeep : IsAt p (.tooDeep .descending)

open Failure (IsAt IsOfWriting)

variable {e : Failure}

theorem Failure.IsAt.isOfWriting {p : Path} (h : IsAt p e) : IsOfWriting e := by
  cases h with
  | file error => exact .refused rfl
  | nulInPath hnul => exact .nulInPath
  | tooDeep => exact .tooDeep

theorem Failure.IsAt.of_parent {p : Path} (h : IsAt p.parent e) : IsAt p e := by
  cases h with
  | file error => exact .file error
  | nulInPath hnul =>
    obtain ⟨part, hpart, hpartNul⟩ := List.any_eq_true.mp hnul
    exact .nulInPath (List.any_eq_true.mpr ⟨part, List.dropLast_subset p.parts hpart, hpartNul⟩)
  | tooDeep => exact .tooDeep

variable [Machine]

namespace FileTree

variable {t t' : FileTree} {p : Path}

omit [Machine] in
theorem isAt_of_refuse {α : Type} {cause : FileError.Cause}
    (h : (refuse cause p : Except Failure α) = .error e) : IsAt p e :=
  Except.error.inj h ▸ .file _

theorem isAt_of_isDirectory (h : t.isDirectory p = .error e) : IsAt p e := by
  rw [isDirectory, find?] at h
  split at h
  · cases h
  · split at h
    · cases h
    · cases h
    · cases h
    · exact Except.error.inj h ▸ .file _

theorem isAt_of_makeDirectory (h : t.makeDirectory p = .error e) : IsAt p e := by
  rw [makeDirectory] at h
  split at h
  · rename_i hnul
    exact Except.error.inj h ▸ .nulInPath hnul
  · split at h
    · exact isAt_of_refuse h
    · split at h
      · exact isAt_of_refuse h
      · cases h

theorem isAt_of_ensureDirectory (h : t.ensureDirectory p = .error e) : IsAt p e := by
  rw [ensureDirectory] at h
  split at h
  · cases h
  · rename_i hmake
    cases hthere : t.isDirectory p with
    | error e' =>
      rw [hthere] at h
      exact Except.error.inj h ▸ isAt_of_isDirectory hthere
    | ok isThere =>
      rw [hthere] at h
      cases isThere with
      | true => cases h
      | false => exact Except.error.inj h ▸ isAt_of_makeDirectory hmake

theorem isAt_of_ensureWithin {room : Nat} (h : t.ensureWithin p room = (.error e, t')) :
    IsAt p e := by
  -- the room is the depth of directories; each that is missing is made after the one above it
  induction room generalizing t p t' with
  | zero =>
    obtain ⟨he, -⟩ := Prod.mk.inj h
    exact Except.error.inj he ▸ .tooDeep
  | succ room ih =>
    rw [ensureWithin] at h
    split at h
    · cases h
    · rename_i hfirst
      split at h
      · split at h
        · rename_i hwithin
          obtain ⟨he, -⟩ := Prod.mk.inj h
          obtain rfl := Except.error.inj he
          exact (ih hwithin).of_parent
        · split at h
          · cases h
          · rename_i hsecond
            obtain ⟨he, -⟩ := Prod.mk.inj h
            exact Except.error.inj he ▸ isAt_of_ensureDirectory hsecond
      · obtain ⟨he, -⟩ := Prod.mk.inj h
        exact Except.error.inj he ▸ isAt_of_ensureDirectory hfirst

theorem isAt_of_filePlace (h : t.filePlace p = .error e) : IsAt p e := by
  rw [filePlace] at h
  split at h
  · rename_i hnul
    exact Except.error.inj h ▸ .nulInPath hnul
  · split at h
    · exact isAt_of_refuse h
    · split at h
      · exact isAt_of_refuse h
      · cases h

end FileTree

namespace Workspace

variable {w : Workspace} {path text : String} {t t' : FileTree}

omit [Machine] in
theorem isOfWriting_of_resolve (h : w.resolve path = .error e) : IsOfWriting e := by
  rw [resolve] at h
  dsimp only at h
  split at h
  · exact Except.error.inj h ▸ .refused rfl
  · split at h
    · exact Except.error.inj h ▸ .nulInPath
    · split at h
      · cases h
      · exact Except.error.inj h ▸ .refused rfl

theorem eq_of_obstacle? {start : Path} {parts : List String} (h : obstacle? start parts = some e) :
    e = .nulInPath ∨ ∃ u, e = .unencodable u := by
  obtain ⟨part, -, hpart⟩ := Option.bind_eq_some_iff.mp h
  rw [partObstacle?] at hpart
  split at hpart
  · exact .inr ⟨_, (Option.some.inj hpart).symm⟩
  · split at hpart
    · exact .inl (Option.some.inj hpart).symm
    · cases hpart

theorem isOfWriting_of_writablePlace (h : w.writablePlace path = .error e) : IsOfWriting e := by
  rw [writablePlace] at h
  split at h
  · rename_i hobstacle
    obtain rfl := Except.error.inj h
    rcases eq_of_obstacle? hobstacle with rfl | ⟨u, rfl⟩
    · exact .nulInPath
    · exact .unencodable u
  · exact isOfWriting_of_resolve h

/-- How writing a file ends: without a place for it, without the directory it goes to, without a
file there that can be written, with an empty file in place of a text that has no form in UTF-8, or
with the text. -/
inductive WriteEnds (w : Workspace) (t : FileTree) (path text : String) :
    Except Failure String × FileTree → Prop
  | unplaced {e : Failure} (hplace : w.writablePlace path = .error e) :
      WriteEnds w t path text (.error e, t)
  | unmade {place : Location} {e : Failure} {t' : FileTree}
      (hplace : w.writablePlace path = .ok place)
      (hmade : t.ensureDirectories place.toPath.parent = (.error e, t')) :
      WriteEnds w t path text (.error e, t')
  | unwritable {place : Location} {e : Failure} {t' : FileTree}
      (hplace : w.writablePlace path = .ok place)
      (hmade : t.ensureDirectories place.toPath.parent = (.ok (), t'))
      (hfile : t'.filePlace place.toPath = .error e) :
      WriteEnds w t path text (.error e, t')
  | emptied {place file : Location} {u : Text.Unencodable} {t' : FileTree}
      (hplace : w.writablePlace path = .ok place)
      (hmade : t.ensureDirectories place.toPath.parent = (.ok (), t'))
      (hfile : t'.filePlace place.toPath = .ok file) (htext : ¬Text.isEncodable text) :
      WriteEnds w t path text (.error (.unencodable u), t'.put file (.file (.text "")))
  | written {place file : Location} {t' : FileTree} (hplace : w.writablePlace path = .ok place)
      (hmade : t.ensureDirectories place.toPath.parent = (.ok (), t'))
      (hfile : t'.filePlace place.toPath = .ok file) (htext : Text.isEncodable text) :
      WriteEnds w t path text (.ok (w.relativeTo place), t'.put file (.file (.text text)))

theorem write_of_unmade {place : Location} (hplace : w.writablePlace path = .ok place)
    (hmade : t.ensureDirectories place.toPath.parent = (.error e, t')) :
    w.write t path text true = (.error e, t') := by
  rw [write, hplace]
  dsimp only
  rw [if_pos rfl, hmade]

theorem write_of_made {place : Location} (hplace : w.writablePlace path = .ok place)
    (hmade : t.ensureDirectories place.toPath.parent = (.ok (), t')) :
    w.write t path text true = ((t'.writeText place.toPath text).1.map fun _ => w.relativeTo place,
      (t'.writeText place.toPath text).2) := by
  rw [write, hplace]
  dsimp only
  rw [if_pos rfl, hmade]

theorem writeEnds (w : Workspace) (t : FileTree) (path text : String) :
    w.WriteEnds t path text (w.write t path text true) := by
  cases hplace : w.writablePlace path with
  | error e =>
    rw [write, hplace]
    exact .unplaced hplace
  | ok place =>
    rcases hmade : t.ensureDirectories place.toPath.parent with ⟨made, t'⟩
    cases made with
    | error e =>
      rw [write_of_unmade hplace hmade]
      exact .unmade hplace hmade
    | ok _ =>
      rw [write_of_made hplace hmade]
      cases hfile : t'.filePlace place.toPath with
      | error e =>
        rw [FileTree.writeText_of_filePlace hfile]
        exact .unwritable hplace hmade hfile
      | ok file =>
        have hpath := FileTree.isFilePath_of_filePlace hfile
        by_cases htext : Text.isEncodable text
        · rw [hpath.writeText_of_isEncodable htext]
          exact .written hplace hmade hfile htext
        · obtain ⟨u, hwrite⟩ := hpath.exists_writeText_of_not_isEncodable htext
          rw [hwrite]
          exact .emptied hplace hmade hfile htext

/-- A file is not written because it has no place, because of the path of the place, or because of
its text. -/
theorem cases_of_write (h : (w.write t path text true).1 = .error e) :
    w.writablePlace path = .error e ∨
      (∃ place, w.writablePlace path = .ok place ∧ IsAt place.toPath e) ∨
      ¬Text.isEncodable text ∧ ∃ u, e = .unencodable u := by
  have hends := w.writeEnds t path text
  generalize w.write t path text true = run at h hends
  cases hends with
  | unplaced hplace => exact .inl (Except.error.inj h ▸ hplace)
  | unmade hplace hmade =>
    obtain rfl := Except.error.inj h
    exact .inr (.inl ⟨_, hplace, (FileTree.isAt_of_ensureWithin hmade).of_parent⟩)
  | unwritable hplace _ hfile =>
    obtain rfl := Except.error.inj h
    exact .inr (.inl ⟨_, hplace, FileTree.isAt_of_filePlace hfile⟩)
  | emptied _ _ _ htext => exact .inr (.inr ⟨htext, _, (Except.error.inj h).symm⟩)
  | written => cases h

theorem isOfWriting_of_write (h : (w.write t path text true).1 = .error e) : IsOfWriting e := by
  rcases cases_of_write h with hplace | ⟨_, -, hat⟩ | ⟨-, u, rfl⟩
  · exact isOfWriting_of_writablePlace hplace
  · exact hat.isOfWriting
  · exact .unencodable u

end Workspace

namespace Host

variable {h : Host} {t : FileTree} {path text : String}

theorem writeFile_eq_error_iff : (h.writeFile t path text).1 = .error e ↔
    ∃ w, h.workspace = some w ∧ (w.write t path text true).1 = .error e ∧
      e.refusesFile = false := by
  rw [writeFile]
  cases h.workspace with
  | none => simp
  | some w =>
    rcases hwrite : w.write t path text true with ⟨written, t'⟩
    cases written with
    | ok place => simp [hwrite]
    | error e' =>
      by_cases heq : e' = e
      · subst heq
        cases hrefuses : e'.refusesFile <;> simp [hwrite, hrefuses]
      · cases hrefuses : e'.refusesFile <;> simp [hwrite, hrefuses, heq]

/-- A host fails to write a file, and does not note it, for these reasons only. -/
theorem writeFile_error (hwrite : (h.writeFile t path text).1 = .error e) :
    e = .nulInPath ∨ (∃ u, e = .unencodable u) ∨ e = .tooDeep .descending := by
  obtain ⟨w, -, hfails, hrefuses⟩ := writeFile_eq_error_iff.mp hwrite
  cases Workspace.isOfWriting_of_write hfails with
  | refused hrefused => cases hrefuses.symm.trans hrefused
  | nulInPath => exact .inl rfl
  | unencodable u => exact .inr (.inl ⟨u, rfl⟩)
  | tooDeep => exact .inr (.inr rfl)

end Host

end StepGlue
