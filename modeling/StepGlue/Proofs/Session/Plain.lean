import StepGlue.Proofs.Json.Display
import StepGlue.Proofs.Session.Rejection
import StepGlue.Proofs.Workspace.Plain

/-!
# When nothing is in the way of an action

If the settings can be read, and all names and texts can be written, every action does what it does
without rejecting a value: it succeeds, or the file system refuses something.
-/

namespace StepGlue

open Json (Object)
open Text

variable [Machine] {e : Failure}

/-! ### Showing names and answers -/

/-- Whether the names and imports of a configuration have no integers that are too long. -/
structure Config.HasShortIntegers (config : Config) : Prop where
  names : config.AllNames fun v => v.hasShortIntegers
  imports : ∀ item ∈ config.imports, item.hasShortIntegers

namespace ClassSource

omit [Machine] in
theorem rejectsValue_of_mergeImports {further : List Json} (h : mergeImports further = .error e) :
    e.rejectsValue = false := by
  rcases bind_eq_error_iff.mp h with hadd | ⟨_, -, hpure⟩
  · exact rejectsValue_of_addImports hadd
  · cases hpure

/-- Names with short integers go too deep, or an import cannot be told apart, if they are not
shown. -/
theorem Names.rejectsValue_of_ofConfig {config : Config} (hshort : config.HasShortIntegers)
    (h : ofConfig config = .error e) : e.rejectsValue = false := by
  have hname {v : Json} (hv : v.hasShortIntegers) (hshown : v.display = .error e) :=
    Json.rejectsValue_of_display hv hshown
  rw [ofConfig] at h
  rcases bind_eq_error_iff.mp h with hpackage | ⟨_, -, h⟩
  · rw [packageOf] at hpackage
    split at hpackage
    · exact hname hshort.names.packageName (map_eq_error_iff.mp hpackage)
    · cases hpackage
  rcases bind_eq_error_iff.mp h with hmerge | ⟨merged, hmerge, h⟩
  · exact rejectsValue_of_mergeImports hmerge
  rcases bind_eq_error_iff.mp h with himports | ⟨_, -, h⟩
  · obtain ⟨item, hitem, hshown⟩ := exists_mem_of_mapM_eq_error himports
    exact hname (forall_mem_of_mergeImports hmerge (fun _ _ => rfl) hshort.imports item hitem)
      hshown
  rcases bind_eq_error_iff.mp h with hbase | ⟨_, -, h⟩
  · cases hgiven : config.baseTestClass with
    | none =>
      rw [hgiven] at hbase
      cases hbase
    | some v =>
      rw [hgiven] at hbase
      exact hname (hshort.names.baseTestClass v hgiven) (map_eq_error_iff.mp hbase)
  rcases bind_eq_error_iff.mp h with hclass | ⟨_, -, hpure⟩
  · exact hname hshort.names.className hclass
  · cases hpure

end ClassSource

theorem Host.rejectsValue_of_prompt {h : Host} (hshort : (Json.obj h.answers).hasShortIntegers)
    {key : String} {default : Option String} (hprompt : h.prompt key default = .error e) :
    e.rejectsValue = false := by
  rw [prompt] at hprompt
  split at hprompt
  · cases hprompt
  · cases hprompt
  · rename_i answer _ hanswer
    exact Json.rejectsValue_of_display (Json.hasShortIntegers_obj_iff.mp hshort _
      (PairList.mem_of_get?_eq_some hanswer)) (map_eq_error_iff.mp hprompt)

/-! ### Storing settings -/

namespace Store

variable {s : Store} {t : FileTree} {now : String} {document values : Object}

/-- Whether the name of the file that a store is on, and what an update writes into it, have no
characters that cannot be written. -/
structure TakesTexts (s : Store) (document : Object) (now : String) (values : Object) : Prop where
  hasNul_eq : ∀ path, s.path = some path → path.hasNul = false
  sectionName : isEncodable s.sectionName
  now : isEncodable now
  document : (Json.obj document).isEncodable
  values : (Json.obj values).isEncodable

theorem rejectsValue_of_update_inMemory (hpath : s.path = none)
    (h : (s.update t now values).1 = .error e) : e.rejectsValue = false := by
  rw [update_inMemory hpath, setInMemory] at h
  cases hcopy : copy (s.memory.update values) with
  | error e' =>
    rw [hcopy] at h
    exact Except.error.inj h ▸ rejectsValue_of_copy hcopy
  | ok updated =>
    rw [hcopy] at h
    cases h

/-- An update of a file that takes what is written goes too deep or is refused, if it fails. -/
theorem rejectsValue_of_update_file {path : Path} (hpath : s.path = some path)
    (hne : s.sectionName ≠ timeMember) (hdocument : s.document t = .ok document)
    (hvalues : (Json.obj values).IsReadable) (htakes : s.TakesTexts document now values)
    (h : (s.update t now values).1 = .error e) : e.rejectsValue = false := by
  obtain ⟨hnul, hname, hnow, htexts, hencodable⟩ := htakes
  have hnodup := hvalues.wellFormed.nodup
  have hshort : (Json.obj (s.written document now values)).hasShortIntegers :=
    (hasShortIntegers_written_iff hne hnodup
      (isRead_of_document hpath hdocument).isReadable.hasShortIntegers now).mpr
        hvalues.hasShortIntegers
  cases hplace : t.filePlace path with
  | error e' =>
    rcases update_of_filePlace hpath hdocument hplace now values with
      hupdate | ⟨hlong, -⟩ | hupdate
    · rw [hupdate] at h
      exact Except.error.inj h ▸ rfl
    · exact absurd hshort hlong
    · rw [hupdate] at h
      have hat := FileTree.isAt_of_filePlace hplace
      exact Except.error.inj h ▸ hat.rejectsValue_eq (hnul path hpath)
  | ok place =>
    rcases update_cases hpath hdocument (FileTree.isFilePath_of_filePlace hplace)
        hvalues.wellFormed now with
      ⟨-, hupdate⟩ | ⟨-, hlong, -⟩ | ⟨hbad, -⟩ | ⟨-, hupdate⟩
    · rw [hupdate] at h
      exact Except.error.inj h ▸ rfl
    · exact absurd hshort hlong
    · exact absurd ((isEncodable_written_iff hne hnodup hname hnow htexts).mpr hencodable) hbad
    · rw [hupdate] at h
      exact rejectsValue_of_copy h

end Store

/-! ### All actions -/

namespace Desk

variable {desk : Desk} {config : Config} {values : Object}

/-- Whether the settings of a desk can be read, no integer in them is too long to be shown, what an
action would write there has a form in UTF-8, and no name of a file has a null character. -/
structure IsPlain (desk : Desk) : Prop where
  exists_config : ∃ config, desk.config = .ok config
  shows : ∀ config, desk.config = .ok config → config.HasShortIntegers
  fileName : ∀ name, desk.fileName? = .ok (some name) →
    Workspace.IsFileName name.toList ∧ '\x00' ∉ name.toList
  code : ∀ action code, desk.HasCode code action → isEncodable code
  takesTexts : desk.session.store.path ≠ none → ∀ document config values,
    desk.session.store.document desk.files = .ok document → desk.config = .ok config →
      desk.host.configured config = .ok (some values) →
        desk.session.store.TakesTexts document desk.now values

theorem isReadable_configured (hkeeps : desk.session.KeepsObjects) {path : Path}
    (hpath : desk.session.store.path = some path) (hconfig : desk.config = .ok config)
    (hvalues : desk.host.configured config = .ok (some values)) : (Json.obj values).IsReadable := by
  refine Json.isReadable_obj_iff.mpr ⟨(wellFormed_configured hkeeps hconfig hvalues).nodup,
    forall_mem_configured (fun text => ⟨.str text, rfl⟩) hkeeps.defaults
      (fun document hdocument => ?_) hconfig hvalues⟩
  have hsection := Store.isReadable_sectionOf desk.session.store
    (Store.isRead_of_document hpath hdocument).isReadable
  exact (Json.isReadable_obj_iff.mp hsection).2

theorem IsPlain.rejectsValue_of_update (hplain : desk.IsPlain) (hkeeps : desk.session.KeepsObjects)
    (hconfig : desk.config = .ok config) (hvalues : desk.host.configured config = .ok (some values))
    (h : (desk.session.store.update desk.files desk.now values).1 = .error e) :
    e.rejectsValue = false := by
  obtain ⟨stored, hstored, -⟩ := Session.resolves_of_currentConfig hconfig
  obtain ⟨document, hdocument, -⟩ := bind_eq_ok_iff.mp hstored
  cases hpath : desk.session.store.path with
  | none => exact Store.rejectsValue_of_update_inMemory hpath h
  | some path =>
    have hfile : desk.session.store.path ≠ none := by simp [hpath]
    exact Store.rejectsValue_of_update_file hpath (hkeeps.holdsSection hfile) hdocument
      (isReadable_configured hkeeps hpath hconfig hvalues)
      (hplain.takesTexts hfile document config values hdocument hconfig hvalues) h

theorem IsPlain.not_obstructs (hplain : desk.IsPlain) (hkeeps : desk.session.KeepsObjects)
    (hanswers : (Json.obj desk.host.answers).hasShortIntegers)
    (hroot : ∀ w, desk.host.workspace = some w → w.root.HasNoNul) (hrejects : e.rejectsValue)
    (action : QuickAction.Name) : ¬desk.Obstructs action e := by
  obtain ⟨config, hconfig⟩ := hplain.exists_config
  rw [obstructs_iff hrejects]
  rintro (⟨-, hfails⟩ | ⟨-, config', hconfig', hnames⟩ |
    ⟨code, hcode, hname | ⟨name, hname, hwrite⟩⟩ |
    ⟨-, config', hconfig', ⟨key, -, hanswer⟩ | ⟨values, hvalues, hupdate⟩⟩)
  · cases hconfig.symm.trans hfails
  · rw [ClassSource.Names.rejectsValue_of_ofConfig (hplain.shows config' hconfig') hnames]
      at hrejects
    cases hrejects
  · rw [Host.rejectsValue_of_prompt hanswers (map_eq_error_iff.mp hname)] at hrejects
    cases hrejects
  · obtain ⟨hchars, hnul⟩ := hplain.fileName name hname
    rw [Host.rejectsValue_of_writeFile hroot hchars hnul (hplain.code action code hcode) hwrite]
      at hrejects
    cases hrejects
  · rw [Host.rejectsValue_of_prompt hanswers hanswer] at hrejects
    cases hrejects
  · rw [hplain.rejectsValue_of_update hkeeps hconfig' hvalues hupdate] at hrejects
    cases hrejects

end Desk

end StepGlue
