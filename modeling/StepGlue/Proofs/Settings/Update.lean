import StepGlue.Proofs.Settings.Memory

/-!
# Updates that succeed

An update that succeeds has set the values in the section, and a snapshot shows them. What was
written once can be written again, so the same update succeeds once more.
-/

namespace StepGlue.Store

open Json (Object)

variable [Machine] {s s' : Store} {t t' : FileTree} {now : String} {values updated : Object}

/-- Whether the section of a store, if it is in a file, is not the member that takes the time. -/
def HoldsSection (s : Store) : Prop :=
  s.path ≠ none → s.sectionName ≠ timeMember

/-- A file on which an update succeeds held a document, and holds what was written after it. -/
theorem exists_written_of_update {path : Path} (hpath : s.path = some path)
    (hvalues : (Json.obj values).WellFormed) (h : s.update t now values = (.ok updated, s', t')) :
    ∃ place document, s.document t = .ok document ∧ t'.IsFilePath path place ∧
      IsStorable (s.written document now values) ∧
      copy ((s.sectionOf document).update values) = .ok updated ∧ s' = s ∧
      s.document t' = .ok (s.written document now values) := by
  cases hdocument : s.document t with
  | error e =>
    rw [update, hdocument] at h
    cases h
  | ok document =>
    cases hplace : t.filePlace path with
    | error e =>
      obtain ⟨e, hupdate⟩ := exists_update_of_filePlace hpath hdocument hplace now values
      cases hupdate.symm.trans h
    | ok place =>
      have hfile := FileTree.isFilePath_of_filePlace hplace
      rcases update_cases hpath hdocument hfile hvalues now with
        ⟨-, hupdate⟩ | ⟨-, -, hupdate⟩ | ⟨-, e, hupdate⟩ | ⟨hstorable, hupdate⟩
      · cases hupdate.symm.trans h
      · cases hupdate.symm.trans h
      · cases hupdate.symm.trans h
      · obtain ⟨hcopy, hrest⟩ := Prod.mk.inj (hupdate.symm.trans h)
        obtain ⟨rfl, rfl⟩ := Prod.mk.inj hrest
        exact ⟨place, document, rfl, hfile.put_file _, hstorable, hcopy, rfl,
          (holds_put_layout hfile hstorable.isReadable).document_eq hpath
            (within_read_written (isRead_of_document hpath hdocument)
              (fun _ => (copy_eq_ok_iff.mp hcopy).1) now)⟩

/-- An update that succeeds sets the values in the section, and a snapshot shows it. -/
theorem snapshot_of_update (hsection : s.HoldsSection) (hvalues : (Json.obj values).WellFormed)
    (h : s.update t now values = (.ok updated, s', t')) :
    s'.snapshot t' = .ok updated ∧
      ∃ document, s.document t = .ok document ∧ updated = (s.sectionOf document).update values := by
  cases hpath : s.path with
  | none =>
    have hmemory := (update_inMemory hpath t now values).symm.trans h
    obtain ⟨hset, hrest⟩ := Prod.mk.inj hmemory
    obtain ⟨rfl, rfl⟩ := Prod.mk.inj hrest
    rw [setInMemory] at hset ⊢
    cases hcopy : copy (s.memory.update values) with
    | error e =>
      rw [hcopy] at hset
      cases hset
    | ok copied =>
      rw [hcopy] at hset
      obtain rfl := Except.ok.inj hset
      obtain rfl := eq_of_copy_eq_ok hcopy
      refine ⟨(snapshot_inMemory (m := { s with memory := s.memory.update values }) hpath t).trans
        hcopy, [(s.sectionName, .obj s.memory)], by rw [document, hpath], ?_⟩
      rw [sectionOf_inMemory]
  | some path =>
    obtain ⟨place, document, hdocument, -, -, hcopy, rfl, hwritten⟩ :=
      exists_written_of_update hpath hvalues h
    have hne : s'.sectionName ≠ timeMember := hsection (by simp [hpath])
    refine ⟨?_, document, hdocument, eq_of_copy_eq_ok hcopy⟩
    rw [snapshot_eq hwritten, sectionOf_written hne, hcopy, eq_of_copy_eq_ok hcopy]

/-- Values that were written once can be written again. -/
theorem IsStorable.again {document : Object} (hne : s.sectionName ≠ timeMember)
    (hdocument : (Json.obj document).IsReadable) (hvalues : (Json.obj values).WellFormed)
    (h : IsStorable (s.written document now values)) {later : String}
    (hlater : Text.isEncodable later) :
    IsStorable (s.written (s.written document now values) later values) := by
  have hmembers := Json.isEncodable_obj_iff.mp h.isEncodable
  have hname : Text.isEncodable s.sectionName := by
    refine (hmembers (s.sectionName, .obj ((s.sectionOf document).update values)) ?_).1
    apply PairList.mem_of_get?_eq_some
    exact (get?_written s document now values _).trans (by rw [if_neg hne, if_pos rfl])
  have hvaluesEncodable : (Json.obj values).isEncodable := Json.isEncodable_obj_iff.mpr
    (forall_mem_values (P := fun member => Text.isEncodable member.1 ∧ member.2.isEncodable)
      (fun _ ho => Json.isEncodable_obj_iff.mp ho.2) hne hvalues.nodup hmembers)
  have hshort := (hasShortIntegers_written_iff hne hvalues.nodup hdocument.hasShortIntegers now).mp
    h.isReadable.hasShortIntegers
  constructor
  · exact ⟨wellFormed_written h.isReadable.wellFormed hvalues,
      (hasShortIntegers_written_iff hne hvalues.nodup h.isReadable.hasShortIntegers later).mpr
        hshort⟩
  · exact (within_written_iff hne hvalues.nodup le_rfl Machine.within_written_two h.within_height
      later).mpr (within_values_of_written hne hvalues.nodup h.within_height
        Machine.within_written_two)
  · exact (isEncodable_written_iff hne hvalues.nodup hname hlater h.isEncodable).mpr
      hvaluesEncodable

/-- An update that has succeeded succeeds again, and sets nothing new. -/
theorem exists_update_again (hsection : s.HoldsSection) (hvalues : (Json.obj values).WellFormed)
    (h : s.update t now values = (.ok updated, s', t')) {later : String}
    (hlater : Text.isEncodable later) :
    ∃ s'' t'', s'.update t' later values = (.ok updated, s'', t'') := by
  obtain ⟨hsnapshot, document, hdocument, rfl⟩ := snapshot_of_update hsection hvalues h
  have hcopy : copy ((s.sectionOf document).update values) =
      .ok ((s.sectionOf document).update values) := by
    obtain ⟨after, -, hcopy⟩ := bind_eq_ok_iff.mp hsnapshot
    exact eq_of_copy_eq_ok hcopy ▸ hcopy
  have hagain : ((s.sectionOf document).update values).update values =
      (s.sectionOf document).update values :=
    PairList.update_again hvalues.nodup (s.sectionOf document)
  cases hpath : s.path with
  | none =>
    rw [Store.document, hpath] at hdocument
    obtain rfl := Except.ok.inj hdocument
    rw [sectionOf_inMemory] at hcopy hagain ⊢
    rw [update_inMemory hpath, setInMemory, hcopy] at h
    obtain ⟨-, hrest⟩ := Prod.mk.inj h
    obtain ⟨rfl, rfl⟩ := Prod.mk.inj hrest
    have hupdate := update_inMemory (m := { s with memory := s.memory.update values }) hpath t later
      values
    rw [setInMemory, hagain, hcopy] at hupdate
    exact ⟨_, _, hupdate⟩
  | some path =>
    obtain ⟨place, document', hdocument', hfile, hstorable, -, rfl, hwritten⟩ :=
      exists_written_of_update hpath hvalues h
    obtain rfl : document' = document := Except.ok.inj (hdocument'.symm.trans hdocument)
    have hne : s'.sectionName ≠ timeMember := hsection (by simp [hpath])
    have hupdate := update_of_isStorable hpath hwritten hfile (hstorable.again hne
      (isRead_of_document hpath hdocument).isReadable hvalues hlater)
    rw [sectionOf_written hne, hagain, hcopy] at hupdate
    exact ⟨_, _, hupdate⟩

/-! ### What an operation changes of the store itself -/

theorem exists_memory_save (s : Store) (t : FileTree) (now : String) (document : Object) :
    ∃ memory, (s.save t now document).2.1 = { s with memory } := by
  rw [save]
  split
  · split
    · exact ⟨s.memory, rfl⟩
    · exact ⟨_, rfl⟩
  · dsimp only
    split
    · split <;> exact ⟨s.memory, rfl⟩
    · exact ⟨s.memory, rfl⟩

theorem exists_memory_update (s : Store) (t : FileTree) (now : String) (values : Object) :
    ∃ memory, (s.update t now values).2.1 = { s with memory } := by
  rw [update]
  split
  · exact ⟨s.memory, rfl⟩
  · rename_i document hdocument
    obtain ⟨memory, hmemory⟩ := s.exists_memory_save t now
      (document.set s.sectionName (.obj ((s.sectionOf document).update values)))
    refine ⟨memory, ?_⟩
    dsimp only
    split <;> rename_i hsave <;> rw [← hmemory, hsave]

theorem exists_memory_addMissing (s : Store) (t : FileTree) (now : String) (defaults : Object) :
    ∃ memory, (s.addMissing t now defaults).2.1 = { s with memory } := by
  rw [addMissing_eq]
  split
  · exact ⟨s.memory, rfl⟩
  · split
    · exact ⟨s.memory, rfl⟩
    · exact s.exists_memory_update t now _

end StepGlue.Store
