import StepGlue.Proofs.Except
import StepGlue.Proofs.Text.StandIns
import StepGlue.Workspace.FileTree

/-!
# Writing a file leaves the directories alone

A file that is written where no directory stands takes no directory away, so a path that leads
somewhere leads there still. What was written is what is found.
-/

namespace StepGlue

namespace Listing

variable {name wanted : String} {rest further : List String} {entry : Entry}

theorem lookup?_directory_of_ne (h : wanted ≠ name) (inside others : Listing) :
    (directory name inside others).lookup? wanted further = others.lookup? wanted further := by
  cases further <;> simp [lookup?, h]

theorem put_directory_of_ne (h : wanted ≠ name) (inside others : Listing) (entry : Entry) :
    (directory name inside others).put wanted further entry =
      directory name inside (others.put wanted further entry) := by
  cases further <;> cases entry <;> simp [put, h]

theorem lookup?_append_single_of_ne (h : name ≠ wanted) (entry : Entry) (others : Listing) :
    (append (single wanted further entry) others).lookup? name rest = others.lookup? name rest := by
  cases further with
  | nil => cases entry <;> simp [single, append, lookup?, h]
  | cons next more => simp [single, append, lookup?, h]

theorem lookup?_put_of_directory {l : Listing} (hfile : l.lookup? wanted further ≠ some .directory)
    (hdir : l.lookup? name rest = some .directory) :
    (l.put wanted further entry).lookup? name rest = some .directory := by
  induction l generalizing name rest wanted further with
  | empty => cases hdir
  | file other old others ih =>
    have hname : name ≠ other := by
      rintro rfl
      rw [lookup?, if_pos rfl] at hdir
      split at hdir <;> cases hdir
    rw [lookup?, if_neg hname] at hdir
    by_cases hwanted : wanted = other
    · subst hwanted
      rw [put, if_pos rfl, lookup?_append_single_of_ne hname, hdir]
    · rw [lookup?, if_neg hwanted] at hfile
      rw [put, if_neg hwanted, lookup?, if_neg hname, ih hfile hdir]
  | directory other inside others ihInside ihOthers =>
    by_cases hwanted : wanted = other
    · subst hwanted
      cases further with
      | nil =>
        rw [lookup?, if_pos rfl] at hfile
        exact absurd rfl hfile
      | cons next more =>
        simp only [lookup?, if_true] at hfile
        rw [put, if_pos rfl]
        by_cases hname : name = wanted
        · subst hname
          cases rest with
          | nil => simp only [lookup?, if_true]
          | cons first others =>
            simp only [lookup?, if_true] at hdir ⊢
            exact ihInside hfile hdir
        · rw [lookup?_directory_of_ne hname] at hdir ⊢
          exact hdir
    · rw [lookup?_directory_of_ne hwanted] at hfile
      rw [put_directory_of_ne hwanted]
      by_cases hname : name = other
      · subst hname
        cases rest with
        | nil => simp only [lookup?, if_true]
        | cons first rest =>
          simp only [lookup?, if_true] at hdir ⊢
          exact hdir
      · rw [lookup?_directory_of_ne hname] at hdir ⊢
        exact ihOthers hfile hdir

end Listing

namespace FileTree

variable {t : FileTree} {place : Location} {content : FileContent} {entry : Entry}

theorem lookup?_put_of_directory (hfile : t.lookup? place ≠ some .directory) {other : Location}
    (hdir : t.lookup? other = some .directory) :
    (t.put place entry).lookup? other = some .directory := by
  cases place with
  | nil => exact absurd rfl hfile
  | cons name further =>
    cases other with
    | nil => rfl
    | cons first rest => exact Listing.lookup?_put_of_directory hfile hdir

theorem lookup?_put_file (hfile : t.lookup? place ≠ some .directory) :
    (t.put place (.file content)).lookup? place = some (.file content) := by
  cases place with
  | nil => exact absurd rfl hfile
  | cons name further => exact Listing.lookup?_put_self t.top name further _

theorem workingDirectory_put (t : FileTree) (place : Location) (entry : Entry) :
    (t.put place entry).workingDirectory = t.workingDirectory := by
  cases place <;> rfl

variable [Machine]

/-- A path leads where it led as long as no directory goes away. -/
theorem follow_of_directories {t' : FileTree}
    (hkept : ∀ place, t.lookup? place = some .directory → t'.lookup? place = some .directory)
    {parts : List String} {start stop : Location} (h : t.follow start parts = .ok stop) :
    t'.follow start parts = .ok stop := by
  induction parts generalizing start with
  | nil => exact h
  | cons part rest ih =>
    rw [follow] at h ⊢
    split at h
    · exact nomatch h
    · exact nomatch h
    · rename_i hdir
      rw [hkept _ hdir]
      dsimp only
      split at h
      · rw [if_pos ‹_›]
        exact ih h
      · rw [if_neg ‹_›]
        split at h
        · exact nomatch h
        · rw [if_neg ‹_›]
          exact ih h

theorem locate_of_directories {t' : FileTree}
    (hkept : ∀ place, t.lookup? place = some .directory → t'.lookup? place = some .directory)
    (hworking : t'.workingDirectory = t.workingDirectory) {p : Path} {stop : Location}
    (h : t.locate p = .ok stop) : t'.locate p = .ok stop := by
  rw [locate] at h ⊢
  split at h
  · exact nomatch h
  · rw [if_neg ‹_›, hworking]
    exact follow_of_directories hkept h

/-- A name of too many bytes is looked for in vain. -/
theorem locate_of_long {p : Path} {name : String} (hparts : p.parts = [name]) (hname : name ≠ "..")
    (hlong : maxNameBytes < Text.EscapedBytes.size name)
    (hstart : t.lookup? (if p.isAbsolute then [] else t.workingDirectory) = some .directory) :
    t.locate p = .error .nameTooLong := by
  rw [locate]
  split
  · rfl
  · rw [hparts, follow, hstart]
    dsimp only
    rw [if_neg hname, if_pos hlong]

theorem locate_put (hfile : t.lookup? place ≠ some .directory) {p : Path} {stop : Location}
    (h : t.locate p = .ok stop) : (t.put place entry).locate p = .ok stop :=
  locate_of_directories (fun _ => lookup?_put_of_directory hfile)
    (workingDirectory_put t place entry) h

theorem isDirectory_eq_true_iff {p : Path} : t.isDirectory p = .ok true ↔
    p.hasNul = false ∧ ∃ found, t.locate p = .ok found ∧ t.lookup? found = some .directory := by
  rw [isDirectory, find?]
  cases p.hasNul with
  | true => simp [bind, Except.bind, pure, Except.pure]
  | false =>
    cases hlocate : t.locate p with
    | error cause => cases cause <;> simp [refuse, bind, Except.bind, pure, Except.pure]
    | ok found => simp [bind, Except.bind, pure, Except.pure]

theorem isDirectory_of_directories {t' : FileTree}
    (hkept : ∀ place, t.lookup? place = some .directory → t'.lookup? place = some .directory)
    (hworking : t'.workingDirectory = t.workingDirectory) {p : Path}
    (h : t.isDirectory p = .ok true) : t'.isDirectory p = .ok true := by
  obtain ⟨hnul, found, hlocate, hdir⟩ := isDirectory_eq_true_iff.mp h
  exact isDirectory_eq_true_iff.mpr
    ⟨hnul, found, locate_of_directories hkept hworking hlocate, hkept found hdir⟩

theorem isDirectory_put_file (hfile : t.lookup? place ≠ some .directory) {p : Path}
    (h : t.isDirectory p = .ok true) : (t.put place (.file content)).isDirectory p = .ok true :=
  isDirectory_of_directories (fun _ => lookup?_put_of_directory hfile)
    (workingDirectory_put t place _) h

theorem isDirectory_of_makeDirectory {p : Path} {t' : FileTree} (h : t.makeDirectory p = .ok t') :
    t'.isDirectory p = .ok true := by
  rw [makeDirectory] at h
  split at h
  · cases h
  · rename_i hnul
    split at h
    · cases h
    · rename_i place hlocate
      split at h
      · cases h
      · rename_i hmissing
        obtain rfl := Except.ok.inj h
        have hfree : t.lookup? place ≠ some .directory := by
          intro hdirectory
          simp [hdirectory] at hmissing
        refine isDirectory_eq_true_iff.mpr
          ⟨by simpa using hnul, place, locate_put hfree hlocate, ?_⟩
        cases place with
        | nil => exact absurd rfl hfree
        | cons name further => exact Listing.lookup?_put_self t.top name further _

theorem isDirectory_of_ensureDirectory {p : Path} {t' : FileTree}
    (h : t.ensureDirectory p = .ok t') : t'.isDirectory p = .ok true := by
  rw [ensureDirectory] at h
  split at h
  · rename_i hmake
    exact isDirectory_of_makeDirectory (Except.ok.inj h ▸ hmake)
  · obtain ⟨isThere, hthere, h⟩ := bind_eq_ok_iff.mp h
    split at h
    · rename_i htrue
      rw [htrue] at hthere
      exact Except.ok.inj h ▸ hthere
    · cases h

/-- A directory that was made with all that is above it is there. -/
theorem isDirectory_of_ensureWithin {p : Path} {t' : FileTree} {room : Nat}
    (h : t.ensureWithin p room = (.ok (), t')) : t'.isDirectory p = .ok true := by
  cases room with
  | zero => cases h
  | succ room =>
    rw [ensureWithin] at h
    split at h
    · rename_i hfirst
      obtain ⟨-, rfl⟩ := Prod.mk.inj h
      exact isDirectory_of_ensureDirectory hfirst
    · split at h
      · split at h
        · cases h
        · split at h
          · rename_i hsecond
            obtain ⟨-, rfl⟩ := Prod.mk.inj h
            exact isDirectory_of_ensureDirectory hsecond
          · cases h
      · cases h

/-- A directory that is there need not be made. -/
theorem ensureDirectories_of_isDirectory {p : Path} (h : t.isDirectory p = .ok true) :
    t.ensureDirectories p = (.ok (), t) := by
  obtain ⟨hnul, found, hlocate, hdir⟩ := isDirectory_eq_true_iff.mp h
  have hensure : t.ensureDirectory p = .ok t := by
    simp [ensureDirectory, makeDirectory, hnul, hlocate, hdir, refuse, h, bind, Except.bind, pure,
      Except.pure]
  rw [ensureDirectories, ensureWithin.eq_def]
  simp only [hensure]

/-! ### A file of text -/

/-- Whether a text file can be read and written at a path: it leads to a place, and no directory
stands there. -/
structure IsFilePath (t : FileTree) (path : Path) (place : Location) : Prop where
  hasNul_eq : path.hasNul = false
  locate_eq : t.locate path = .ok place
  not_directory : t.lookup? place ≠ some .directory

namespace IsFilePath

variable {path : Path} (h : t.IsFilePath path place)
include h

theorem find?_eq : t.find? path = .ok (t.lookup? place) := by
  simp [find?, h.hasNul_eq, h.locate_eq]

theorem filePlace_eq : t.filePlace path = .ok place := by
  simp [filePlace, h.hasNul_eq, h.locate_eq, h.not_directory]

theorem put_file (content : FileContent) :
    (t.put place (.file content)).IsFilePath path place where
  hasNul_eq := h.hasNul_eq
  locate_eq := locate_put h.not_directory h.locate_eq
  not_directory := by simp [lookup?_put_file h.not_directory]

theorem writeText_of_isEncodable {text : String} (htext : Text.isEncodable text) :
    t.writeText path text = (.ok (), t.put place (.file (.text text))) := by
  rw [writeText, h.filePlace_eq, (Text.Charset.unencodable?_eq_none_iff .utf8 text).mpr htext]

/-- A text without a form in UTF-8 is not written, and what the file held before is gone. -/
theorem exists_writeText_of_not_isEncodable {text : String} (htext : ¬Text.isEncodable text) :
    ∃ e, t.writeText path text = (.error (.unencodable e), t.put place (.file (.text ""))) := by
  cases hfault : Text.Charset.utf8.unencodable? text with
  | none => exact absurd ((Text.Charset.unencodable?_eq_none_iff .utf8 text).mp hfault) htext
  | some e => exact ⟨e, by rw [writeText, h.filePlace_eq, hfault]⟩

end IsFilePath

theorem isFilePath_of_filePlace {path : Path} (h : t.filePlace path = .ok place) :
    t.IsFilePath path place := by
  rw [filePlace] at h
  split at h
  · exact nomatch h
  · rename_i hnul
    split at h
    · exact nomatch h
    · rename_i hlocate
      split at h
      · exact nomatch h
      · rename_i hdirectory
        obtain rfl := Except.ok.inj h
        exact ⟨by simpa using hnul, hlocate, hdirectory⟩

theorem writeText_of_filePlace {path : Path} {e : Failure} (h : t.filePlace path = .error e)
    (text : String) : t.writeText path text = (.error e, t) := by
  rw [writeText, h]

/-! ### Trees that get a file -/

/-- Whether a tree is another one that got at most one file, in no directory's place. -/
def GetsFile (t t' : FileTree) : Prop :=
  t' = t ∨ ∃ place content, t.lookup? place ≠ some .directory ∧ t' = t.put place (.file content)

namespace GetsFile

variable {t' : FileTree}

omit [Machine] in
theorem refl (t : FileTree) : t.GetsFile t :=
  .inl rfl

omit [Machine] in
theorem workingDirectory_eq (h : t.GetsFile t') : t'.workingDirectory = t.workingDirectory := by
  rcases h with rfl | ⟨place, content, -, rfl⟩
  · rfl
  · exact workingDirectory_put t place _

theorem isDirectory_eq (h : t.GetsFile t') {p : Path} (hp : t.isDirectory p = .ok true) :
    t'.isDirectory p = .ok true := by
  rcases h with rfl | ⟨place, content, hfree, rfl⟩
  · exact hp
  · exact isDirectory_put_file hfree hp

end GetsFile

theorem getsFile_writeText (t : FileTree) (p : Path) (text : String) :
    t.GetsFile (t.writeText p text).2 := by
  have hput : ∀ place, t.filePlace p = .ok place → ∀ content,
      t.GetsFile (t.put place (.file content)) :=
    fun place hplace content =>
      .inr ⟨place, content, (isFilePath_of_filePlace hplace).not_directory, rfl⟩
  rw [writeText]
  split
  · exact .refl t
  · exact hput _ ‹_› _
  · exact hput _ ‹_› _

/-! ### A file in an empty tree -/

def empty : FileTree where
  workingDirectory := []
  top := .empty

def settingsPath : Path where
  slashes := 0
  parts := ["s.json"]

theorem isFilePath_empty : empty.IsFilePath settingsPath ["s.json"] := by
  have hascii : ∀ c ∈ ("s.json" : String).toList, c.toNat < 0xF0000 :=
    Text.toNat_lt_of_all (by decide)
  have hsize : Text.EscapedBytes.size "s.json" = 6 := by
    rw [Text.EscapedBytes.size, Text.bytes_eq_flatMap hascii]
    rfl
  have hcanonical : Text.EscapedBytes.canonical "s.json" = "s.json" :=
    Text.EscapedBytes.canonical_eq_self fun c hc => Text.byte?_eq_none (hascii c hc)
  have hlocate : empty.locate settingsPath = .ok ["s.json"] := by
    rw [locate, show settingsPath.toString = "s.json" from rfl, hsize, if_neg (by decide)]
    simp only [settingsPath, follow, hsize, hcanonical]
    rfl
  exact ⟨rfl, hlocate, nofun⟩

theorem isDirectory_empty : empty.isDirectory settingsPath.parent = .ok true := by
  have hdot : Text.EscapedBytes.size "." = 1 := by
    rw [Text.EscapedBytes.size, Text.bytes_eq_flatMap (Text.toNat_lt_of_all (by decide))]
    rfl
  refine isDirectory_eq_true_iff.mpr ⟨rfl, [], ?_, rfl⟩
  rw [locate, show settingsPath.parent.toString = "." from rfl, hdot, if_neg (by decide)]
  rfl

end FileTree

end StepGlue
