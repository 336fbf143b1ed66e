import StepGlue.Proofs.Settings.Preserved

/-!
# Setting what is missing

Setting what a section lacks adds it at the end and leaves alone what is there, null included. If
nothing is missing nothing is written, so what was set once is not set again.
-/

namespace StepGlue.Store

open Json (Object)

/-! ### What is missing -/

section Missing

variable {stored defaults : Object}

theorem missing_eq_nil_iff : missing stored defaults = [] ↔
    ∀ key ∈ PairList.keys defaults, stored.contains key := by
  simp [missing, List.filter_eq_nil_iff]

theorem not_mem_keys_of_mem_missing {key : String}
    (h : key ∈ PairList.keys (missing stored defaults)) : key ∉ PairList.keys stored := by
  obtain ⟨member, hmem, rfl⟩ := List.mem_map.mp h
  have hlacks := (List.mem_filter.mp hmem).2
  rw [← PairList.get?_eq_none_iff, ← Option.not_isSome_iff_eq_none]
  simpa [Object.contains, Object.get?] using hlacks

/-- What is missing is added at the end. -/
theorem update_missing (hstored : (Json.obj stored).WellFormed)
    (hdefaults : (Json.obj defaults).WellFormed) :
    stored.update (missing stored defaults) = stored ++ missing stored defaults := by
  apply PairList.update_eq_append
  rw [PairList.keys, List.map_append]
  refine hstored.nodup.append (hdefaults.filter _).nodup fun key hkey hmissing => ?_
  exact not_mem_keys_of_mem_missing hmissing hkey

end Missing

variable [Machine] {s s' : Store} {t t' : FileTree} {now : String}
  {stored defaults updated : Object} {result : Except Failure Object} {e : Failure}

/-! ### Setting it -/

/-- Where nothing is missing nothing is written. -/
theorem addMissing_of_complete (hstored : s.snapshot t = .ok stored)
    (hcomplete : ∀ key ∈ PairList.keys defaults, stored.contains key) (now : String) :
    s.addMissing t now defaults = (.ok stored, s, t) := by
  rw [addMissing_eq, hstored]
  dsimp only
  rw [missing_eq_nil_iff.mpr hcomplete]
  rfl

theorem addMissing_eq_update (hstored : s.snapshot t = .ok stored)
    (hmissing : missing stored defaults ≠ []) :
    s.addMissing t now defaults = s.update t now (missing stored defaults) := by
  rw [addMissing_eq, hstored]
  exact if_neg (by simpa using hmissing)

/-- It fails with the snapshot, or with the update that sets what is missing. -/
theorem addMissing_eq_error_iff : (s.addMissing t now defaults).1 = .error e ↔
    s.snapshot t = .error e ∨ ∃ stored, s.snapshot t = .ok stored ∧
      missing stored defaults ≠ [] ∧
      (s.update t now (missing stored defaults)).1 = .error e := by
  cases hsnapshot : s.snapshot t with
  | error e' =>
    rw [addMissing_eq, hsnapshot]
    simp
  | ok stored =>
    by_cases hmissing : missing stored defaults = []
    · rw [addMissing_of_complete hsnapshot (missing_eq_nil_iff.mp hmissing)]
      simp [hmissing]
    · rw [addMissing_eq_update hsnapshot hmissing]
      simp [hmissing]

/-- If it does not fail, it gives the section with what was missing, which is there from then on. -/
theorem snapshot_of_addMissing (hsection : s.HoldsSection)
    (hmemory : (Json.obj s.memory).WellFormed) (hdefaults : (Json.obj defaults).WellFormed)
    (h : s.addMissing t now defaults = (.ok updated, s', t')) :
    s'.snapshot t' = .ok updated ∧ ∃ stored, s.snapshot t = .ok stored ∧
      updated = stored ++ missing stored defaults := by
  cases hsnapshot : s.snapshot t with
  | error e =>
    rw [addMissing_eq, hsnapshot] at h
    cases h
  | ok stored =>
    by_cases hmissing : missing stored defaults = []
    · rw [addMissing_of_complete hsnapshot (missing_eq_nil_iff.mp hmissing)] at h
      cases h
      exact ⟨hsnapshot, _, rfl, by rw [hmissing, List.append_nil]⟩
    · rw [addMissing_eq_update hsnapshot hmissing] at h
      obtain ⟨hafter, document, hdocument, rfl⟩ :=
        snapshot_of_update hsection (hdefaults.filter _) h
      obtain rfl := sectionOf_eq_of_snapshot hdocument hsnapshot
      exact ⟨hafter, _, rfl, update_missing (wellFormed_stored hmemory hdocument) hdefaults⟩

/-! ### Failing to set it -/

/-- Whether no text is in the way of a store on a file that is to take some values. -/
def IsCleanFile (s : Store) (t : FileTree) (now : String) (values : Object) : Prop :=
  s.path ≠ none → IsClean s.sectionName now values ∧
    ∀ document, s.document t = .ok document → (Json.obj document).isEncodable

/-- If no text is in the way, an update changes nothing or sets all values. -/
theorem unchanged_or_set_of_update {values : Object} (hfile : s.IsCleanFile t now values)
    (h : s.update t now values = (result, s', t')) :
    (s' = s ∧ t' = t) ∨ ∃ document after, s.document t = .ok document ∧
      s'.Contains t' after ∧ s'.sectionOf after = (s.sectionOf document).update values := by
  cases hpath : s.path with
  | none =>
    have hdocument : s.document t = .ok [(s.sectionName, .obj s.memory)] := by
      rw [document, hpath]
    rw [update_inMemory hpath, setInMemory] at h
    cases hcopy : copy (s.memory.update values) with
    | error e =>
      rw [hcopy] at h
      cases h
      exact .inl ⟨rfl, rfl⟩
    | ok updated =>
      obtain rfl := eq_of_copy_eq_ok hcopy
      rw [hcopy] at h
      cases h
      refine .inr ⟨_, [(s.sectionName, .obj (s.memory.update values))], hdocument,
        contains_of_document (by rw [document, hpath]), ?_⟩
      rw [sectionOf_inMemory s]
      exact sectionOf_inMemory { s with memory := s.memory.update values }
  | some path =>
    obtain ⟨hclean, hencodable⟩ := hfile (by simp [hpath])
    cases hdocument : s.document t with
    | error e =>
      rw [update, hdocument] at h
      cases h
      exact .inl ⟨rfl, rfl⟩
    | ok document =>
      cases hplace : t.filePlace path with
      | error e =>
        obtain ⟨e, hupdate⟩ := exists_update_of_filePlace hpath hdocument hplace now values
        cases hupdate.symm.trans h
        exact .inl ⟨rfl, rfl⟩
      | ok place =>
        have hplaced := FileTree.isFilePath_of_filePlace hplace
        rcases update_cases_of_isClean hpath hdocument hplaced (hencodable document hdocument)
          hclean with ⟨e, hupdate⟩ | ⟨hstorable, hupdate⟩
        · cases hupdate.symm.trans h
          exact .inl ⟨rfl, rfl⟩
        · cases hupdate.symm.trans h
          exact .inr ⟨document, _, rfl, contains_put_written hpath hdocument hplaced hstorable,
            sectionOf_written hclean.sectionName_ne⟩

theorem IsCleanFile.missing (hfile : s.IsCleanFile t now defaults) (stored : Object) :
    s.IsCleanFile t now (missing stored defaults) :=
  fun hpath => ⟨(hfile hpath).1.missing stored, (hfile hpath).2⟩

/-- Whether or not it fails, it changes nothing or adds all that is missing. -/
theorem unchanged_or_added (hmemory : (Json.obj s.memory).WellFormed)
    (hdefaults : (Json.obj defaults).WellFormed) (hfile : s.IsCleanFile t now defaults)
    (h : s.addMissing t now defaults = (result, s', t')) :
    (s' = s ∧ t' = t) ∨ ∃ document after, s.document t = .ok document ∧
      s'.Contains t' after ∧
      s'.sectionOf after =
        s.sectionOf document ++ Store.missing (s.sectionOf document) defaults := by
  cases hsnapshot : s.snapshot t with
  | error e =>
    rw [addMissing_eq, hsnapshot] at h
    cases h
    exact .inl ⟨rfl, rfl⟩
  | ok stored =>
    by_cases hmissing : Store.missing stored defaults = []
    · rw [addMissing_of_complete hsnapshot (missing_eq_nil_iff.mp hmissing)] at h
      cases h
      exact .inl ⟨rfl, rfl⟩
    · rw [addMissing_eq_update hsnapshot hmissing] at h
      obtain ⟨document, hdocument, rfl⟩ := exists_document_of_snapshot hsnapshot
      rcases unchanged_or_set_of_update (hfile.missing _) h with
        hunchanged | ⟨document', after, hdocument', hafter, hset⟩
      · exact .inl hunchanged
      · obtain rfl : document = document' := Except.ok.inj (hdocument.symm.trans hdocument')
        refine .inr ⟨document, after, hdocument, hafter, hset.trans ?_⟩
        exact update_missing (wellFormed_stored hmemory hdocument) hdefaults

/-- What setting what a section lacks does. -/
structure FillsGaps (s : Store) (t : FileTree) (now : String) (defaults : Object) : Prop where
  /-- If it does not fail, what is missing stands at the end of the section, and stays there. -/
  added : ∀ updated s' t', s.addMissing t now defaults = (.ok updated, s', t') →
    s'.snapshot t' = .ok updated ∧ ∃ stored, s.snapshot t = .ok stored ∧
      updated = stored ++ Store.missing stored defaults
  fails_iff : ∀ e, (s.addMissing t now defaults).1 = .error e ↔ s.snapshot t = .error e ∨
    ∃ stored, s.snapshot t = .ok stored ∧ Store.missing stored defaults ≠ [] ∧
      (s.update t now (Store.missing stored defaults)).1 = .error e
  /-- Whether or not it fails, no stored member is lost, unless a text is in the way. -/
  unchanged_or_added : s.IsCleanFile t now defaults →
    ∀ result s' t', s.addMissing t now defaults = (result, s', t') → (s' = s ∧ t' = t) ∨
      ∃ document after, s.document t = .ok document ∧ s'.Contains t' after ∧
        s'.sectionOf after =
          s.sectionOf document ++ Store.missing (s.sectionOf document) defaults

theorem fillsGaps (hsection : s.HoldsSection) (hmemory : (Json.obj s.memory).WellFormed)
    (hdefaults : (Json.obj defaults).WellFormed) (t : FileTree) (now : String) :
    s.FillsGaps t now defaults where
  added := fun _ _ _ => snapshot_of_addMissing hsection hmemory hdefaults
  fails_iff := fun _ => addMissing_eq_error_iff
  unchanged_or_added := fun hfile _ _ _ => unchanged_or_added hmemory hdefaults hfile

end StepGlue.Store
