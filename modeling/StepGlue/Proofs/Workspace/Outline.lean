import StepGlue.Proofs.Text.StandIns
import StepGlue.Workspace.Root

/-!
# Trees but for what their files hold

Where directories and files stand decides how paths are followed, what directories are made and
which files can be written. What the files hold does not: every operation does the same to a tree
and to its outline, in which all files are empty.
-/

namespace StepGlue

def Entry.outline : Entry → Entry
  | directory => directory
  | file _ => file (.text "")

namespace Listing

def outline : Listing → Listing
  | empty => empty
  | file name _ others => file name (.text "") (outline others)
  | directory name inside others => directory name (outline inside) (outline others)

theorem outline_append (l more : Listing) :
    (l.append more).outline = l.outline.append more.outline := by
  induction l with
  | empty => rfl
  | file name content others ih => rw [append, outline, outline, append, ih]
  | directory name inside others _ ih => rw [append, outline, outline, append, ih]

theorem outline_single (name : String) (further : List String) (entry : Entry) :
    (single name further entry).outline = single name further entry.outline := by
  induction further generalizing name with
  | nil => cases entry <;> rfl
  | cons next rest ih => rw [single, single, outline, ih, outline]

theorem outline_put (l : Listing) (name : String) (further : List String) (entry : Entry) :
    (l.put name further entry).outline = l.outline.put name further entry.outline := by
  induction l generalizing name further with
  | empty => exact outline_single name further entry
  | file other content others ih =>
    rw [put, outline, put]
    split
    · rw [outline_append, outline_single]
    · rw [outline, ih]
  | directory other inside others ihInside ihOthers =>
    by_cases h : name = other
    · subst h
      cases further with
      | nil => cases entry <;> simp [put, outline, Entry.outline]
      | cons next rest => simp [put, outline, ihInside]
    · cases further <;> cases entry <;> simp [put, outline, Entry.outline, h, ihOthers]

theorem lookup?_outline (l : Listing) (name : String) (further : List String) :
    l.outline.lookup? name further = (l.lookup? name further).map Entry.outline := by
  induction l generalizing name further with
  | empty => rfl
  | file other content others ih =>
    rw [outline, lookup?, lookup?, ih]
    split
    · split <;> rfl
    · rfl
  | directory other inside others ihInside ihOthers =>
    by_cases h : name = other
    · subst h
      cases further with
      | nil => simp [outline, lookup?, Entry.outline]
      | cons next rest => simp [outline, lookup?, ihInside]
    · cases further <;> simp [outline, lookup?, h, ihOthers]

end Listing

namespace FileTree

def outline (t : FileTree) : FileTree :=
  { t with top := t.top.outline }

variable {t : FileTree} {place : Location} {p : Path}

theorem outline_put (t : FileTree) (place : Location) (entry : Entry) :
    (t.put place entry).outline = t.outline.put place entry.outline := by
  cases place with
  | nil => rfl
  | cons name further => exact congrArg (FileTree.mk t.workingDirectory) (Listing.outline_put ..)

theorem lookup?_outline (t : FileTree) (place : Location) :
    t.outline.lookup? place = (t.lookup? place).map Entry.outline := by
  cases place with
  | nil => rfl
  | cons name further => exact Listing.lookup?_outline t.top name further

theorem lookup?_outline_eq_directory_iff :
    t.outline.lookup? place = some .directory ↔ t.lookup? place = some .directory := by
  rw [lookup?_outline]
  cases t.lookup? place with
  | none => simp
  | some entry => cases entry <;> simp [Entry.outline]

variable [Machine]

theorem follow_outline (place : Location) (parts : List String) :
    t.outline.follow place parts = t.follow place parts := by
  induction parts generalizing place with
  | nil => rfl
  | cons part rest ih =>
    rw [follow, follow, lookup?_outline]
    cases t.lookup? place with
    | none => rfl
    | some entry =>
      cases entry with
      | file content => rfl
      | directory =>
        simp only [Option.map_some, Entry.outline, ih]

theorem locate_outline (p : Path) : t.outline.locate p = t.locate p := by
  rw [locate, locate, follow_outline]
  rfl

theorem isDirectory_outline (p : Path) : t.outline.isDirectory p = t.isDirectory p := by
  rw [isDirectory, isDirectory, find?, find?, locate_outline]
  cases p.hasNul with
  | true => rfl
  | false =>
    cases t.locate p with
    | error cause => cases cause <;> rfl
    | ok place =>
      have hdirectory : (t.outline.lookup? place == some .directory) =
          (t.lookup? place == some .directory) := by
        rw [Bool.eq_iff_iff, beq_iff_eq, beq_iff_eq, lookup?_outline_eq_directory_iff]
      exact congrArg Except.ok hdirectory

theorem makeDirectory_outline (p : Path) :
    t.outline.makeDirectory p = (t.makeDirectory p).map outline := by
  rw [makeDirectory, makeDirectory, locate_outline]
  cases p.hasNul with
  | true => rfl
  | false =>
    cases t.locate p with
    | error cause => rfl
    | ok place =>
      dsimp only
      rw [lookup?_outline, Option.isSome_map]
      cases (t.lookup? place).isSome with
      | true => rfl
      | false => exact congrArg Except.ok (outline_put t place .directory).symm

theorem ensureDirectory_outline (p : Path) :
    t.outline.ensureDirectory p = (t.ensureDirectory p).map outline := by
  rw [ensureDirectory, ensureDirectory, makeDirectory_outline, isDirectory_outline]
  cases t.makeDirectory p with
  | ok made => rfl
  | error e =>
    cases t.isDirectory p with
    | error e' => rfl
    | ok isThere => cases isThere <;> rfl

theorem ensureWithin_outline (t : FileTree) (p : Path) (room : Nat) :
    t.outline.ensureWithin p room =
      ((t.ensureWithin p room).1, (t.ensureWithin p room).2.outline) := by
  -- the room is the depth of directories, as in the recursion
  induction room generalizing t p with
  | zero => rfl
  | succ room ih =>
    rw [ensureWithin, ensureWithin, ensureDirectory_outline]
    cases t.ensureDirectory p with
    | ok made => rfl
    | error e =>
      rw [Except.map]
      dsimp only
      split
      · rw [ih]
        rcases t.ensureWithin p.parent room with ⟨above, t'⟩
        cases above with
        | error e' => rfl
        | ok above =>
          dsimp only
          rw [ensureDirectory_outline]
          cases t'.ensureDirectory p <;> rfl
      · rfl

theorem filePlace_outline (p : Path) : t.outline.filePlace p = t.filePlace p := by
  rw [filePlace, filePlace, locate_outline]
  simp only [lookup?_outline_eq_directory_iff]

/-- What is written to a file does not show in the outline. -/
theorem outline_writeText (t : FileTree) (p : Path) (text : String) :
    (t.writeText p text).2.outline = (t.outline.writeText p "").2 := by
  rw [writeText, writeText, filePlace_outline]
  have hempty : Text.Charset.utf8.unencodable? "" = none := by
    simp [Text.Charset.unencodable?_eq_none_iff]
  rw [hempty]
  cases t.filePlace p with
  | error e => rfl
  | ok place =>
    cases Text.Charset.utf8.unencodable? text with
    | none => exact outline_put t place _
    | some u => exact outline_put t place _

end FileTree

end StepGlue
