import StepGlue.Proofs.Settings.Update
import StepGlue.Proofs.Workspace.Frame

/-!
# What happens to a section

A file of settings that is written by nobody else holds what its store has put there. So the section
is changed by updates only, and an update leaves it as it is, sets the values in it, or loses it.
-/

namespace StepGlue.Store

open Json (Object)

variable [Machine] {s : Store} {t t' : FileTree} {changed : Location → Prop}
  {document values : Object} {now : String}

/-! ### The work of others -/

/-- Whether the path of a store leads somewhere, if it can. -/
def HasPlace (s : Store) (t : FileTree) : Prop :=
  ∀ path, s.path = some path → path.hasNul = false → t.locate path = .ok (t.placeOf path)

/-- Whether the file of a store is not among some places. -/
def IsSpared (s : Store) (t : FileTree) (changed : Location → Prop) : Prop :=
  ∀ path, s.path = some path → ¬changed (t.placeOf path)

theorem HasPlace.of_frame (h : s.HasPlace t) (hframe : FileTree.Frame changed t t') :
    s.HasPlace t' := by
  intro path hpath hnul
  rw [FileTree.placeOf_congr hframe.workingDirectory_eq]
  exact hframe.locate_eq (h path hpath hnul)

section Frame

variable (hplace : s.HasPlace t) (hframe : FileTree.Frame changed t t')
  (hspared : s.IsSpared t changed)
include hplace hframe hspared

/-- A file that is spared is read as before; a directory in its place is read as no file is. -/
theorem document_of_frame : s.document t' = s.document t := by
  cases hpath : s.path with
  | none => rw [document, document, hpath]
  | some path =>
    rw [document, document, hpath]
    dsimp only
    cases hnul : path.hasNul with
    | true =>
      rw [FileTree.find?, FileTree.find?, hnul]
      rfl
    | false =>
      have hlocate := hplace path hpath hnul
      rw [FileTree.find?, FileTree.find?, hnul, hlocate, hframe.locate_eq hlocate]
      rcases hframe.lookup?_eq _ (hspared path hpath) with heq | ⟨hnone, hdirectory⟩
      · dsimp only
        rw [heq]
      · dsimp only
        rw [hnone, hdirectory]
        rfl

/-- What a store holds in a file that is spared, it holds still. -/
theorem Contains.of_frame (h : s.Contains t document) : s.Contains t' document := by
  have hdocument := document_of_frame hplace hframe hspared
  refine ⟨?_, fun hcopy => hdocument.trans (h.document_eq hcopy)⟩
  rcases h.isRead_or_written with hread | ⟨path, place, hpath, hholds⟩
  · exact .inl (hdocument.trans hread)
  rcases hholds.isRead_or_written with hread | hwritten
  · exact .inl (hdocument.trans (hread s hpath))
  -- the text stands in the file still, for no directory is made where a file is
  have hat := FileTree.eq_placeOf_of_locate hholds.isFilePath.locate_eq
  have hlookup : t'.lookup? place = t.lookup? place := by
    rcases hframe.lookup?_eq _ (hspared path hpath) with heq | ⟨hnone, -⟩
    · rw [hat, heq]
    · rw [hat, hnone] at hwritten
      cases hwritten
  have hfile : t'.IsFilePath path place :=
    ⟨hholds.isFilePath.hasNul_eq, hframe.locate_eq hholds.isFilePath.locate_eq,
      hlookup ▸ hholds.isFilePath.not_directory⟩
  exact .inr ⟨path, place, hpath, hfile, hholds.isReadable, .inr (hlookup.trans hwritten)⟩

end Frame

/-- A store that was opened on a file has its directory. -/
theorem of_openFile {path : Path} {sectionName : String}
    (h : openFile t path sectionName = (.ok s, t')) :
    s = { path := some path, sectionName, memory := [] } ∧
      t'.isDirectory path.parent = .ok true := by
  rw [openFile] at h
  rcases hmade : t.ensureDirectories path.parent with ⟨made, t''⟩
  rw [hmade] at h
  obtain ⟨hs, rfl⟩ := Prod.mk.inj h
  obtain ⟨_, rfl, rfl⟩ := map_eq_ok_iff.mp hs
  exact ⟨rfl, FileTree.isDirectory_of_ensureWithin hmade⟩

/-- A store whose directory is there has a place, or its path is too long to be read. -/
theorem hasPlace_of_isDirectory_parent
    (hparent : ∀ path, s.path = some path → t.isDirectory path.parent = .ok true)
    (hdocument : s.document t = .ok document) : s.HasPlace t := by
  intro path hpath hnul
  rcases FileTree.locate_of_isDirectory_parent (hparent path hpath) with hlocate | hlong
  · exact hlocate
  · rw [Store.document, hpath] at hdocument
    simp only [FileTree.find?, hnul, hlong, FileTree.refuse] at hdocument
    cases hdocument

/-! ### The work of the store -/

theorem getsFile_save (s : Store) (t : FileTree) (now : String) (document : Object) :
    t.GetsFile (s.save t now document).2.2 := by
  rw [save]
  split
  · split <;> exact .refl t
  · dsimp only
    split
    · split
      · exact t.getsFile_writeText _ _
      · exact .refl t
    · exact .refl t

theorem getsFile_update (s : Store) (t : FileTree) (now : String) (values : Object) :
    t.GetsFile (s.update t now values).2.2 := by
  rw [update]
  split
  · exact .refl t
  · rename_i document _
    have hsave := s.getsFile_save t now
      (document.set s.sectionName (.obj ((s.sectionOf document).update values)))
    dsimp only
    split <;> rename_i hresult <;> rw [hresult] at hsave <;> exact hsave

theorem getsFile_addMissing (s : Store) (t : FileTree) (now : String) (defaults : Object) :
    t.GetsFile (s.addMissing t now defaults).2.2 := by
  rw [addMissing_eq]
  split
  · exact .refl t
  · split
    · exact .refl t
    · exact s.getsFile_update t now _

/-- Whether a section is as before, lost, or has some values set in it; these can be copied then, or
a file has taken them. -/
def IsSectionAfter (s : Store) (stored values after : Object) : Prop :=
  after = stored ∨ after = [] ∨
    after = stored.update values ∧
      (Within (Machine.limit Nesting.copied) (Json.obj (stored.update values)).height ∨
        s.path ≠ none ∧ Within (Machine.limit Nesting.written) ((Json.obj values).height + 1))

section Update

variable {s' : Store} {result : Except Failure Object}

theorem section_of_update_inMemory (hpath : s.path = none)
    (h : s.update t now values = (result, s', t')) :
    s'.HasPlace t' ∧ ∃ after, s'.Contains t' after ∧
      s.IsSectionAfter s.memory values (s'.sectionOf after) := by
  rw [update_inMemory hpath] at h
  cases h
  refine ⟨fun path hfile => ?_, [(s.sectionName, .obj (setInMemory values s.memory).2)],
    contains_of_document ?_, ?_⟩
  · cases hpath.symm.trans hfile
  · rw [document, hpath]
  · rw [sectionOf_inMemory { s with memory := (setInMemory values s.memory).2 }]
    dsimp only
    rw [setInMemory]
    cases hcopy : copy (s.memory.update values) with
    | error e => exact .inl rfl
    | ok updated =>
      obtain ⟨hlow, rfl⟩ := copy_eq_ok_iff.mp hcopy
      exact .inr (.inr ⟨rfl, .inl hlow⟩)

theorem section_of_update_file {path : Path} {place : Location} (hpath : s.path = some path)
    (hdocument : s.document t = .ok document) (hfile : t.IsFilePath path place)
    (hvalues : (Json.obj values).WellFormed) (h : s.update t now values = (result, s', t')) :
    s'.HasPlace t' ∧ ∃ after, s'.Contains t' after ∧
      s.IsSectionAfter (s.sectionOf document) values (s'.sectionOf after) := by
  have hplace : ∀ t'', t''.IsFilePath path place → s.HasPlace t'' := by
    intro t'' hthere other hother _
    obtain rfl := Option.some.inj (hpath.symm.trans hother)
    rw [hthere.locate_eq, ← FileTree.eq_placeOf_of_locate hthere.locate_eq]
  rcases update_cases hpath hdocument hfile hvalues now with
    ⟨-, hupdate⟩ | ⟨-, -, hupdate⟩ | ⟨-, e, hupdate⟩ | ⟨hstorable, hupdate⟩
  · cases hupdate.symm.trans h
    exact ⟨hplace _ hfile, document, contains_of_document hdocument, .inl rfl⟩
  · cases hupdate.symm.trans h
    exact ⟨hplace _ hfile, document, contains_of_document hdocument, .inl rfl⟩
  · -- the write has failed after the file was emptied
    cases hupdate.symm.trans h
    have hemptied := document_of_text hpath (hfile.put_file (.text ""))
      (FileTree.lookup?_put_file hfile.not_directory)
    exact ⟨hplace _ (hfile.put_file _), [], contains_of_document hemptied, .inr (.inl rfl)⟩
  · cases hupdate.symm.trans h
    refine ⟨hplace _ (hfile.put_file _), _,
      contains_put_written hpath hdocument hfile hstorable, ?_⟩
    by_cases hname : s.sectionName = timeMember
    · exact .inr (.inl (sectionOf_written_of_eq hname))
    · exact .inr (.inr ⟨sectionOf_written hname, .inr ⟨by simp [hpath],
        within_values_of_written hname hvalues.nodup hstorable.within_height
          Machine.within_written_two⟩⟩)

/-- An update leaves the section as it is, loses it, or has set the values in it. -/
theorem section_of_update (hplace : s.HasPlace t) (hcontains : s.Contains t document)
    (hvalues : (Json.obj values).WellFormed) (h : s.update t now values = (result, s', t')) :
    s'.HasPlace t' ∧ ∃ after, s'.Contains t' after ∧
      s.IsSectionAfter (s.sectionOf document) values (s'.sectionOf after) := by
  rcases hcontains.document_cases with hdocument | ⟨container, hfails⟩
  · cases hpath : s.path with
    | none =>
      have hmemory := section_of_update_inMemory hpath h
      rw [Store.document, hpath] at hdocument
      obtain rfl := Except.ok.inj hdocument
      rw [sectionOf_inMemory]
      exact hmemory
    | some path =>
      cases hfile : t.filePlace path with
      | error e =>
        obtain ⟨e, hupdate⟩ := exists_update_of_filePlace hpath hdocument hfile now values
        cases hupdate.symm.trans h
        exact ⟨hplace, document, hcontains, .inl rfl⟩
      | ok place =>
        exact section_of_update_file hpath hdocument (FileTree.isFilePath_of_filePlace hfile)
          hvalues h
  · rw [update, hfails] at h
    cases h
    exact ⟨hplace, document, hcontains, .inl rfl⟩

/-- Setting what a section lacks is an update with that. -/
theorem section_of_addMissing {defaults : Object} (hplace : s.HasPlace t)
    (hcontains : s.Contains t document) (hdefaults : (Json.obj defaults).WellFormed)
    (h : s.addMissing t now defaults = (result, s', t')) :
    s'.HasPlace t' ∧ ∃ after, s'.Contains t' after ∧
      s.IsSectionAfter (s.sectionOf document) (missing (s.sectionOf document) defaults)
        (s'.sectionOf after) := by
  rw [addMissing_eq] at h
  split at h
  · cases h
    exact ⟨hplace, document, hcontains, .inl rfl⟩
  · rename_i hsnapshot
    obtain ⟨-, rfl⟩ := hcontains.snapshot_eq_ok_iff.mp hsnapshot
    split at h
    · cases h
      exact ⟨hplace, document, hcontains, .inl rfl⟩
    · exact section_of_update hplace hcontains (hdefaults.filter _) h

end Update

end StepGlue.Store
