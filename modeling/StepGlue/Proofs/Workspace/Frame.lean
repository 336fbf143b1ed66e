import StepGlue.Proofs.Workspace.Growth
import StepGlue.Workspace.Root

/-!
# Writing a file changes no other file

A file that is written below the top directory is put where its path leads and nowhere else, and
only directories that were missing are made for it.
-/

namespace StepGlue

namespace FileTree

variable {t t' t'' : FileTree} {place stop : Location}

/-- Whether a tree differs from another one at some places at most, and elsewhere by directories
that were missing. -/
structure Frame (changed : Location → Prop) (t t' : FileTree) : Prop where
  workingDirectory_eq : t'.workingDirectory = t.workingDirectory
  directory : ∀ place, t.lookup? place = some .directory → t'.lookup? place = some .directory
  lookup?_eq : ∀ place, ¬changed place → t'.lookup? place = t.lookup? place ∨
    t.lookup? place = none ∧ t'.lookup? place = some .directory

namespace Frame

variable {changed changed' : Location → Prop}

theorem refl (changed : Location → Prop) (t : FileTree) : Frame changed t t :=
  ⟨rfl, fun _ => id, fun _ _ => .inl rfl⟩

theorem mono (h : Frame changed t t') (hchanged : ∀ place, changed place → changed' place) :
    Frame changed' t t' :=
  ⟨h.workingDirectory_eq, h.directory,
    fun place hplace => h.lookup?_eq place fun hold => hplace (hchanged place hold)⟩

theorem trans (h : Frame changed t t') (h' : Frame changed t' t'') : Frame changed t t'' := by
  refine ⟨h'.workingDirectory_eq.trans h.workingDirectory_eq,
    fun place hplace => h'.directory place (h.directory place hplace), fun place hplace => ?_⟩
  rcases h.lookup?_eq place hplace with heq | ⟨hnone, hdirectory⟩
  · rw [← heq]
    exact h'.lookup?_eq place hplace
  · exact .inr ⟨hnone, h'.directory place hdirectory⟩

theorem put_file {content : FileContent} (hparent : t.lookup? place.dropLast = some .directory)
    (hfree : t.lookup? place ≠ some .directory) :
    Frame (· = place) t (t.put place (.file content)) :=
  ⟨workingDirectory_put t place _, fun _ => lookup?_put_of_directory hfree,
    fun _ hother => .inl (lookup?_put_of_ne hparent hfree hother)⟩

variable [Machine]

theorem locate_eq (h : Frame changed t t') {p : Path} (hlocate : t.locate p = .ok stop) :
    t'.locate p = .ok stop :=
  locate_of_directories h.directory h.workingDirectory_eq hlocate

theorem isDirectory_eq (h : Frame changed t t') {p : Path} (hp : t.isDirectory p = .ok true) :
    t'.isDirectory p = .ok true :=
  isDirectory_of_directories h.directory h.workingDirectory_eq hp

end Frame

theorem Grows.frame {made : Location → Prop} (h : Grows made t t') (changed : Location → Prop) :
    Frame changed t t' :=
  ⟨h.workingDirectory_eq, fun _ => h.directory, fun place _ =>
    (h.lookup?_eq place).imp_right fun ⟨hnone, hdirectory, _⟩ => ⟨hnone, hdirectory⟩⟩

/-! ### Writing a file -/

section Operations

variable [Machine] {p : Path}

/-- A file is written where the path leads, and nowhere else. -/
theorem frame_writeText (hp : p.isAbsolute) (text : String) :
    Frame (· = destination [] p.parts) t (t.writeText p text).2 := by
  rw [writeText]
  have hput : ∀ place, t.filePlace p = .ok place → ∀ content,
      Frame (· = destination [] p.parts) t (t.put place (.file content)) := by
    intro place hplace content
    have hfile := isFilePath_of_filePlace hplace
    obtain rfl := eq_placeOf_of_locate hfile.locate_eq
    have hframe : Frame (· = t.placeOf p) t (t.put (t.placeOf p) (.file content)) :=
      .put_file (lookup?_dropLast_of_locate hp hfile.locate_eq) hfile.not_directory
    rw [placeOf, if_pos hp] at hframe
    rw [placeOf, if_pos hp]
    exact hframe
  split
  · exact .refl _ t
  · exact hput _ ‹_› _
  · exact hput _ ‹_› _

end Operations

end FileTree

namespace Workspace

variable [Machine]

theorem resolve_of_writablePlace {w : Workspace} {path : String} {place : Location}
    (h : w.writablePlace path = .ok place) : w.resolve path = .ok place := by
  rw [writablePlace] at h
  split at h
  · cases h
  · exact h

/-- Where a workspace writes a file of some name. -/
def Writes (w : Workspace) (path : String) (place : Location) : Prop :=
  ∃ found, w.resolve path = .ok found ∧ place = FileTree.destination [] found

theorem frame_write (w : Workspace) (t : FileTree) (path text : String) (makeDirectories : Bool) :
    FileTree.Frame (w.Writes path) t (w.write t path text makeDirectories).2 := by
  rw [write]
  split
  · exact .refl _ t
  · rename_i place hplace
    have hwrites : ∀ other, other = FileTree.destination [] place → w.Writes path other :=
      fun other hother => ⟨place, resolve_of_writablePlace hplace, hother⟩
    have hmade : FileTree.Frame (w.Writes path) t
        (if makeDirectories then t.ensureDirectories place.toPath.parent else (.ok (), t)).2 := by
      split
      · exact (FileTree.grows_ensureDirectories (p := place.toPath.parent) rfl).frame _
      · exact .refl _ t
    split
    rename_i made t' hmade'
    rw [hmade'] at hmade
    dsimp only
    split
    · exact hmade
    · exact hmade.trans ((FileTree.frame_writeText (p := place.toPath) rfl text).mono hwrites)

end Workspace

end StepGlue
