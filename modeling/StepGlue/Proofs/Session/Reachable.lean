import StepGlue.Proofs.Session.Effect

/-!
# What commands can make of a store

However often and in which order the commands of a session are given, and whether or not they fail,
the section that they keep holds settings only. So there is always a configuration, unless a value
was stored that is too high to be copied.
-/

namespace StepGlue

open Json (Object)

section Runs

variable [Machine]

/-! ### What is kept -/

namespace Session

/-- Whether a section holds settings only, which can be copied if that is asked for. -/
structure IsKeptSection (low : Prop) (stored : Object) : Prop where
  wellFormed : (Json.obj stored).WellFormed
  areSettings : AreSettings stored
  within_height : low → Within (Machine.limit Nesting.copied) (Json.obj stored).height

/-- Whether values are settings that can be set without a loss of what is kept. -/
structure MayBeSet (low : Prop) (s : Store) (values : Object) : Prop where
  wellFormed : (Json.obj values).WellFormed
  areSettings : AreSettings values
  avoidsGap : low → s.path = none ∨ Store.AvoidsGap values

variable {low : Prop} {store : Store} {stored values after : Object}

theorem isKeptSection_nil (low : Prop) : IsKeptSection low [] :=
  ⟨.obj List.nodup_nil nofun, nofun, fun _ => Machine.within_copied_two.of_le (by decide)⟩

theorem IsKeptSection.of_isSectionAfter (h : IsKeptSection low stored)
    (hvalues : MayBeSet low store values) (hafter : store.IsSectionAfter stored values after) :
    IsKeptSection low after := by
  rcases hafter with rfl | rfl | ⟨rfl, hheight⟩
  · exact h
  · exact isKeptSection_nil low
  · refine ⟨h.wellFormed.update hvalues.wellFormed, h.areSettings.update hvalues.areSettings,
      fun hlow => ?_⟩
    rcases hheight with hcopied | ⟨hfile, hwritten⟩
    · exact hcopied
    · exact Store.within_copied_update (h.within_height hlow)
        ((hvalues.avoidsGap hlow).resolve_left hfile) hwritten

end Session

/-! ### What may be set -/

/-- Whether what a command is given to store is not in the gap between what is copied and what is
written. -/
def Call.AvoidsGap (call : Call) : Prop :=
  ∀ values changes, call = .update values → Session.changes values = .ok changes →
    Store.AvoidsGap changes

namespace Session

/-- Whether a value that can be written into a section can be copied with it. -/
def IsOutsideGap (v : Json) : Prop :=
  Within (Machine.limit Nesting.written) (v.height + 2) → v.IsCopied

variable {low : Prop} {s : Session}

omit [Machine] in
theorem forall_mem_defaultNames {P : Json → Prop} (h : s.defaults.AllNames P) :
    ∀ setting ∈ s.defaultNames, P setting.2 :=
  List.forall_mem_cons.mpr ⟨h.packageName, List.forall_mem_singleton.mpr h.className⟩

omit [Machine] in
theorem wellFormed_defaultNames (h : s.defaults.AllNames Json.WellFormed) :
    (Json.obj s.defaultNames).WellFormed :=
  .obj (show ["packageName", "className"].Nodup by decide) (forall_mem_defaultNames h)

theorem mayBeSet_missing (hdefaults : s.defaults.AllNames Json.WellFormed)
    (havoids : low → s.store.path = none ∨ s.defaults.AllNames IsOutsideGap) (stored : Object) :
    MayBeSet low s.store (Store.missing stored s.defaultNames) := by
  have hnames : ∀ setting ∈ s.defaultNames, setting.1 ∈ names :=
    List.forall_mem_cons.mpr ⟨by simp [names], List.forall_mem_singleton.mpr (by simp [names])⟩
  refine ⟨(wellFormed_defaultNames hdefaults).filter _, areSettings_of_names fun setting hmem =>
    hnames setting (List.mem_of_mem_filter hmem), fun hlow => ?_⟩
  refine (havoids hlow).imp id fun houtside => ?_
  have hgap : ∀ setting ∈ s.defaultNames, IsOutsideGap setting.2 := forall_mem_defaultNames houtside
  exact Store.AvoidsGap.missing hgap stored

end Session

theorem Desk.Sets.mayBeSet {low : Prop} {desk : Desk} {call : Call} {values document : Object}
    (h : desk.Sets call values)
    (hdocument : desk.session.store.Contains desk.files document)
    (hkept : Session.IsKeptSection low (desk.session.store.sectionOf document))
    (hcall : ∀ given, call = .update given → (Json.obj given).WellFormed)
    (hdefaults : desk.session.defaults.AllNames Json.WellFormed)
    (havoids : low → desk.session.store.path = none ∨
      desk.session.defaults.AllNames Session.IsOutsideGap ∧ call.AvoidsGap) :
    Session.MayBeSet low desk.session.store values := by
  cases h with
  | changes hgiven hchanges =>
    exact ⟨Session.wellFormed_changes (hcall _ hgiven) hchanges,
      Session.areSettings_of_changes hchanges,
      fun hlow => (havoids hlow).imp id fun hgap => hgap.2 _ _ hgiven hchanges⟩
  | names hconfig hvalues =>
    obtain ⟨stored, hstored, hresolves⟩ := Session.resolves_of_currentConfig hconfig
    obtain ⟨-, rfl⟩ := hdocument.snapshot_eq_ok_iff.mp hstored
    have hkeys := Host.keys_configured hvalues
    have hwell := Host.forall_mem_configured Json.WellFormed.str
      (hresolves.allNames hdefaults hkept.wellFormed.member) hvalues
    refine ⟨.obj ?_ hwell, Session.areSettings_of_names fun setting hmem => ?_, fun hlow => ?_⟩
    · rw [hkeys]
      decide
    · rw [← hkeys]
      exact List.mem_map.mpr ⟨setting, hmem, rfl⟩
    · refine (havoids hlow).imp id fun hgap => ?_
      have hlowStored := (Json.within_obj_iff.mp (hkept.within_height hlow)).2
      have houtside := hresolves.allNames hgap.1 fun setting hmem _ => hlowStored setting hmem
      have htext : ∀ text, Session.IsOutsideGap (.str text) := fun _ _ => Machine.within_copied_two
      exact Host.forall_mem_configured htext houtside hvalues

/-! ### Visits -/

/-- A command that is given at some time for some host. -/
structure Visit where
  call : Call
  host : Host
  now : String

namespace Visit

def desk (v : Visit) (s : Session) (files : FileTree) : Desk where
  session := s
  host := v.host
  files
  now := v.now

/-- The session and the files after a command, whether it returns or fails. -/
def after (v : Visit) (state : Session × FileTree) : Session × FileTree :=
  let desk := v.call.after (v.desk state.1 state.2)
  (desk.session, desk.files)

theorem effect_after (v : Visit) (s : Session) (files : FileTree) :
    (v.desk s files).Effect v.call (v.after (s, files)).1 (v.after (s, files)).2 :=
  Desk.effect_after v.call (v.desk s files)

/-- Whether a command is given objects, and its host does not write to the file of the settings. -/
structure IsSound (v : Visit) (s : Session) (files : FileTree) : Prop where
  wellFormed : ∀ values, v.call = .update values → (Json.obj values).WellFormed
  spared : ∀ selectionOnly overrides, v.call = .generate selectionOnly overrides →
    v.host.followUp? = some "Create File" → ∀ name, (v.desk s files).fileName? = .ok (some name) →
      s.store.IsSpared files (v.host.Writes name)

end Visit

namespace Session

/-- The session and the files after some commands. -/
def afterAll (visits : List Visit) (state : Session × FileTree) : Session × FileTree :=
  visits.foldl (fun state v => v.after state) state

/-- Whether a session and its files are those of the start, but for a store that is kept. -/
structure IsKept (low : Prop) (s : Session) (files : FileTree) (s' : Session) (files' : FileTree) :
    Prop where
  exists_memory : ∃ memory, s' = { s with store := { s.store with memory } }
  workingDirectory_eq : files'.workingDirectory = files.workingDirectory
  hasPlace : s'.store.HasPlace files'
  exists_document : ∃ document, s'.store.Contains files' document ∧
    IsKeptSection low (s'.store.sectionOf document)

variable {low : Prop} {s s' : Session} {files files' : FileTree}

/-- A command keeps what is kept if it leaves the store its place and a section that is kept. -/
theorem IsKept.of_effect (h : IsKept low s files s' files') {v : Visit} {session : Session}
    {after : FileTree} (heffect : (v.desk s' files').Effect v.call session after)
    (hstore : session.store.HasPlace after ∧ ∃ document, session.store.Contains after document ∧
      IsKeptSection low (session.store.sectionOf document)) :
    IsKept low s files session after := by
  obtain ⟨memory, rfl⟩ := heffect.exists_memory
  obtain ⟨memory', rfl⟩ := h.exists_memory
  exact ⟨⟨memory, rfl⟩, heffect.workingDirectory_eq.trans h.workingDirectory_eq, hstore.1, hstore.2⟩

theorem IsKept.path_eq (h : IsKept low s files s' files') : s'.store.path = s.store.path := by
  obtain ⟨_, rfl⟩ := h.exists_memory
  rfl

theorem IsKept.defaults_eq (h : IsKept low s files s' files') : s'.defaults = s.defaults := by
  obtain ⟨_, rfl⟩ := h.exists_memory
  rfl

/-- A host that does not write to the file of the settings at the start never does. -/
theorem IsKept.isSpared (h : IsKept low s files s' files') {v : Visit} {name : String}
    (hname : (v.desk s' files').fileName? = .ok (some name))
    (hspared : (v.desk s files).fileName? = .ok (some name) →
      s.store.IsSpared files (v.host.Writes name)) :
    s'.store.IsSpared files' (v.host.Writes name) := by
  intro path hpath hwrites
  rw [FileTree.placeOf_congr h.workingDirectory_eq] at hwrites
  rw [h.path_eq] at hpath
  refine hspared ?_ path hpath hwrites
  obtain ⟨_, rfl⟩ := h.exists_memory
  exact hname

/-- One command keeps what is kept. -/
theorem IsKept.step (h : IsKept low s files s' files') {v : Visit} (hv : v.IsSound s files)
    (hdefaults : s.defaults.AllNames Json.WellFormed)
    (havoids : low → s.store.path = none ∨ s.defaults.AllNames IsOutsideGap ∧ v.call.AvoidsGap) :
    IsKept low s files (v.after (s', files')).1 (v.after (s', files')).2 := by
  obtain ⟨document, hdocument, hkept⟩ := h.exists_document
  rw [← h.defaults_eq] at hdefaults
  rw [← h.defaults_eq, ← h.path_eq] at havoids
  have heffect := v.effect_after s' files'
  generalize v.after (s', files') = state at heffect ⊢
  obtain ⟨session, after⟩ := state
  refine h.of_effect heffect ?_
  cases heffect with
  | nothing => exact ⟨h.hasPlace, document, hdocument, hkept⟩
  | wrote hcall hchoice hname hframe =>
    exact ⟨h.hasPlace.of_frame hframe, document, Store.Contains.of_frame h.hasPlace hframe
      (h.isSpared hname (hv.spared _ _ hcall hchoice _)) hdocument, hkept⟩
  | updated hsets hupdate =>
    -- the result is not looked at: an update that fails may have lost the section, or set it
    have hset := hsets.mayBeSet hdocument hkept hv.wellFormed hdefaults havoids
    obtain ⟨hplace, found, hfound, hafter⟩ :=
      Store.section_of_update h.hasPlace hdocument hset.wellFormed hupdate
    exact ⟨hplace, found, hfound, hkept.of_isSectionAfter hset hafter⟩
  | added hadd =>
    have hset := mayBeSet_missing hdefaults (fun hlow => (havoids hlow).imp id And.left)
      (s'.store.sectionOf document)
    obtain ⟨hplace, found, hfound, hafter⟩ := Store.section_of_addMissing h.hasPlace hdocument
      (wellFormed_defaultNames hdefaults) hadd
    exact ⟨hplace, found, hfound, hkept.of_isSectionAfter hset hafter⟩

/-- Commands keep what is kept. -/
theorem IsKept.afterAll {visits : List Visit} (h : IsKept low s files s' files')
    (hvisits : ∀ v ∈ visits, v.IsSound s files) (hdefaults : s.defaults.AllNames Json.WellFormed)
    (havoids : low → s.store.path = none ∨
      s.defaults.AllNames IsOutsideGap ∧ ∀ v ∈ visits, v.call.AvoidsGap) :
    IsKept low s files (Session.afterAll visits (s', files')).1
      (Session.afterAll visits (s', files')).2 := by
  induction visits generalizing s' files' with
  | nil => exact h
  | cons v visits ih =>
    obtain ⟨hv, hrest⟩ := List.forall_mem_cons.mp hvisits
    rw [Session.afterAll, List.foldl_cons]
    refine ih (h.step hv hdefaults fun hlow => ?_) hrest fun hlow => ?_
    · exact (havoids hlow).imp id fun hgap => ⟨hgap.1, hgap.2 v List.mem_cons_self⟩
    · exact (havoids hlow).imp id fun hgap =>
        ⟨hgap.1, fun v' hmem => hgap.2 v' (List.mem_cons_of_mem v hmem)⟩

theorem isKept_of_empty {document : Object} (hdocument : s.store.document files = .ok document)
    (hempty : s.store.sectionOf document = [])
    (hparent : ∀ path, s.store.path = some path → files.isDirectory path.parent = .ok true)
    (low : Prop) : IsKept low s files s files :=
  ⟨⟨s.store.memory, rfl⟩, rfl, Store.hasPlace_of_isDirectory_parent hparent hdocument,
    document, Store.contains_of_document hdocument, hempty ▸ isKeptSection_nil low⟩

/-- **A store holds settings only.** Commands that are given for any hosts, objects and overrides,
and that may fail, make of an empty section one that holds settings only, each in the form in which
it is stored, as long as nobody else writes to its file. So there is a configuration if and only if
the section can be copied; it can be if the store is in memory, or if no name was given that is too
high for that and yet low enough to be written. -/
theorem areSettings_of_visits {visits : List Visit} {document : Object}
    (hdocument : s.store.document files = .ok document)
    (hempty : s.store.sectionOf document = [])
    (hparent : ∀ path, s.store.path = some path → files.isDirectory path.parent = .ok true)
    (hdefaults : s.defaults.AllNames Json.WellFormed)
    (hvisits : ∀ v ∈ visits, v.IsSound s files) :
    (∃ found, (afterAll visits (s, files)).1.store.Contains (afterAll visits (s, files)).2 found ∧
      AreSettings ((afterAll visits (s, files)).1.store.sectionOf found) ∧
      ((∃ config, (afterAll visits (s, files)).1.currentConfig (afterAll visits (s, files)).2 [] =
          .ok config) ↔
        Within (Machine.limit Nesting.copied)
          (Json.obj ((afterAll visits (s, files)).1.store.sectionOf found)).height)) ∧
    ((s.store.path = none ∨ s.defaults.AllNames IsOutsideGap ∧ ∀ v ∈ visits, v.call.AvoidsGap) →
      ∃ config, (afterAll visits (s, files)).1.currentConfig (afterAll visits (s, files)).2 [] =
        .ok config) := by
  have hstart := isKept_of_empty hdocument hempty hparent
    (s.store.path = none ∨ s.defaults.AllNames IsOutsideGap ∧ ∀ v ∈ visits, v.call.AvoidsGap)
  obtain ⟨found, hfound, hkept⟩ := (hstart.afterAll hvisits hdefaults id).exists_document
  have hiff := hkept.areSettings.exists_currentConfig_iff hfound
  exact ⟨⟨found, hfound, hkept.areSettings, hiff⟩, fun hlow => hiff.mpr (hkept.within_height hlow)⟩

end Session

end Runs

/-! ### Five commands, and one that nothing is read after -/

section Examples

attribute [local instance] Machine.plain

/-- A session that keeps its settings in a file. -/
def fileSession : Session where
  store := Store.onSettingsFile
  defaults := Config.default
  stepFileName := "StepDefinitions.java"
  indentSize := 4

def hostOf (documentText : Option String) (answers : Object) : Host :=
  Host.ofRequest documentText none none (some { root := [] }) answers

def fileVisit : Visit :=
  ⟨.generate false [], hostOf (some "Given a") [("followUp", .str "Create File")], "t"⟩

/-- Commands that store names, fail, store a list, write a file, and configure. -/
def fiveVisits : List Visit :=
  [ ⟨.addDefaults, hostOf none [], "t"⟩,
    ⟨.update [("framework", .str "bogus")], hostOf none [], "t"⟩,
    ⟨.update [("imports", .arr [.int 1]), ("note", .null)], hostOf none [], "t"⟩,
    fileVisit,
    ⟨.configure, hostOf none [("className", .str "X")], "t"⟩ ]

theorem wellFormed_of_fiveVisits : ∀ v ∈ fiveVisits, ∀ values, v.call = .update values →
    (Json.obj values).WellFormed := by
  intro v hv values hcall
  simp only [fiveVisits, List.mem_cons, List.not_mem_nil, or_false] at hv
  rcases hv with rfl | rfl | rfl | rfl | rfl
  · cases hcall
  · cases hcall
    exact .obj (by decide) (List.forall_mem_singleton.mpr (.str _))
  · cases hcall
    exact .obj (by decide) (List.forall_mem_cons.mpr
      ⟨.arr (List.forall_mem_singleton.mpr (.int 1)), List.forall_mem_singleton.mpr .null⟩)
  · cases hcall
  · cases hcall

theorem isSound_of_fiveVisits : ∀ v ∈ fiveVisits, v.IsSound fileSession .empty := by
  intro v hv
  refine ⟨wellFormed_of_fiveVisits v hv, ?_⟩
  simp only [fiveVisits, List.mem_cons, List.not_mem_nil, or_false] at hv
  rcases hv with rfl | rfl | rfl | rfl | rfl
  · exact nofun
  · exact nofun
  · exact nofun
  · intro _ _ _ _ name hname
    have hfile : (fileVisit.desk fileSession .empty).fileName? =
        .ok (some "StepDefinitions.java") := by decide
    obtain rfl : "StepDefinitions.java" = name :=
      Option.some.inj (Except.ok.inj (hfile.symm.trans hname))
    rintro path ⟨⟩ ⟨w, ⟨⟩, found, hfound, hplace⟩
    obtain rfl := Except.ok.inj hfound
    revert hplace
    decide +kernel
  · exact nofun

theorem avoidsGap_of_fiveVisits : ∀ v ∈ fiveVisits, v.call.AvoidsGap := by
  intro v hv values changes hcall hchanges
  simp only [fiveVisits, List.mem_cons, List.not_mem_nil, or_false] at hv
  rcases hv with rfl | rfl | rfl | rfl | rfl
  · cases hcall
  · cases hcall
    cases hchanges
  · cases hcall
    exact fun _ _ _ => within_none _
  · cases hcall
  · cases hcall

theorem areSettings_of_fiveVisits :
    (∃ found, (Session.afterAll fiveVisits (fileSession, .empty)).1.store.Contains
        (Session.afterAll fiveVisits (fileSession, .empty)).2 found ∧
      Session.AreSettings
        ((Session.afterAll fiveVisits (fileSession, .empty)).1.store.sectionOf found)) ∧
    ∃ config, (Session.afterAll fiveVisits (fileSession, .empty)).1.currentConfig
      (Session.afterAll fiveVisits (fileSession, .empty)).2 [] = .ok config := by
  have hdefaults : fileSession.defaults.AllNames Json.WellFormed := ⟨.str _, .str _, nofun⟩
  have houtside : fileSession.defaults.AllNames Session.IsOutsideGap :=
    ⟨fun _ => within_none _, fun _ => within_none _, nofun⟩
  have hdocument : fileSession.store.document .empty = .ok [] := rfl
  have hparent : ∀ path, fileSession.store.path = some path →
      FileTree.empty.isDirectory path.parent = .ok true := by
    rintro path ⟨⟩
    exact FileTree.isDirectory_empty
  obtain ⟨⟨found, hfound, hsettings, -⟩, hconfig⟩ :=
    Session.areSettings_of_visits hdocument rfl hparent hdefaults isSound_of_fiveVisits
  exact ⟨⟨found, hfound, hsettings⟩, hconfig (.inr ⟨houtside, avoidsGap_of_fiveVisits⟩)⟩

end Examples

section Gap

def arrayVisit (items : List Json) : Visit :=
  ⟨.update [("packageName", .arr items)], hostOf none [], "t"⟩

variable [Machine]

/-- An array in the gap stands in the way of a configuration once it was given as a package name. -/
theorem not_exists_currentConfig_of_gap {items : List Json}
    (hreadable : (Json.arr items).IsReadable) (hencodable : (Json.arr items).isEncodable)
    (hwritten : Within (Machine.limit Nesting.written) ((Json.arr items).height + 2))
    (hhigh : ¬(Json.arr items).IsCopied) :
    ¬∃ config, (Session.afterAll [arrayVisit items] (fileSession, .empty)).1.currentConfig
      (Session.afterAll [arrayVisit items] (fileSession, .empty)).2 [] = .ok config := by
  have hascii (text : String) (h : text.toList.all (·.toNat < 128)) : Text.isEncodable text :=
    Json.all_admits_of_isAscii (Text.toNat_lt_of_all h)
  have hclean : Store.IsClean Store.defaultSection "t" [("packageName", .arr items)] :=
    { sectionName_ne := by decide
      isEncodable_sectionName := hascii _ (by decide)
      isEncodable_now := hascii _ (by decide)
      wellFormed :=
        .obj (List.nodup_singleton _) (List.forall_mem_singleton.mpr hreadable.wellFormed)
      isEncodable := Json.isEncodable_obj_iff.mpr
        (List.forall_mem_singleton.mpr ⟨hascii "packageName" (by decide), hencodable⟩) }
  have hstorable := Store.isStorable_nil.written (s := Store.onSettingsFile) hclean
    (Json.within_levels_obj_iff.mpr
      ⟨Machine.within_written_two, List.forall_mem_singleton.mpr hwritten⟩)
    (Json.hasShortIntegers_obj_iff.mpr (List.forall_mem_singleton.mpr hreadable.hasShortIntegers))
  have hdocument : Store.onSettingsFile.document .empty = .ok [] :=
    (Store.holds_of_absent FileTree.isFilePath_empty rfl).document_eq rfl
      Store.isRead_nil.within_depth
  have hupdate := Store.update_of_isStorable rfl hdocument FileTree.isFilePath_empty hstorable
  have hfound := Store.contains_put_written rfl hdocument FileTree.isFilePath_empty hstorable
  have hsection : fileSession.store.sectionOf (Store.onSettingsFile.written [] "t"
      [("packageName", .arr items)]) = [("packageName", .arr items)] :=
    Store.sectionOf_written hclean.sectionName_ne
  have hsettings : Session.AreSettings [("packageName", .arr items)] :=
    Session.areSettings_of_names (List.forall_mem_singleton.mpr (by simp [Session.names]))
  -- the update has failed, but by then the file holds what was given
  have hrun : (Command.updateSettings [("packageName", .arr items)]).runOn
      ((arrayVisit items).desk fileSession .empty) = _ :=
    Command.runOn_updateSettings rfl (List.cons_ne_nil _ _) hupdate
  change ¬∃ config, ((Command.updateSettings [("packageName", .arr items)]).runOn
      ((arrayVisit items).desk fileSession .empty)).2.session.currentConfig
    ((Command.updateSettings [("packageName", .arr items)]).runOn
      ((arrayVisit items).desk fileSession .empty)).2.files [] = .ok config
  rw [hrun]
  intro hconfig
  rw [← hsection] at hsettings
  have hcopied := (hsettings.exists_currentConfig_iff (s := fileSession) hfound).mp hconfig
  rw [hsection] at hcopied
  exact hhigh ((Json.within_obj_iff.mp hcopied).2 ("packageName", .arr items) List.mem_cons_self)

end Gap

section Failures

attribute [local instance] Machine.shallow

def longName : String :=
  String.ofList (List.replicate 300 'a')

/-- A session whose settings file has a name that is too long for a file. -/
def lostSession : Session :=
  { fileSession with
    store := { Store.onSettingsFile with path := some { slashes := 0, parts := [longName] } } }

theorem toList_longName : longName.toList = List.replicate 300 'a' :=
  String.toList_ofList

theorem size_longName : Text.EscapedBytes.size longName = 300 := by
  have hascii : ∀ c ∈ longName.toList, c.toNat < 0xF0000 := by
    intro c hc
    rw [toList_longName] at hc
    rw [List.eq_of_mem_replicate hc]
    decide
  rw [Text.EscapedBytes.size, Text.bytes_eq_flatMap hascii, toList_longName,
    List.length_flatMap, List.map_replicate, List.sum_replicate]
  rfl

theorem document_lostSession : ∃ e, lostSession.store.document .empty = .error e := by
  have hname : longName ≠ ".." := by
    intro heq
    have hlength := congrArg String.toList heq
    rw [toList_longName] at hlength
    cases hlength
  have hlong : FileTree.maxNameBytes < Text.EscapedBytes.size longName := by
    rw [size_longName]
    decide
  have hlocate :
      FileTree.empty.locate { slashes := 0, parts := [longName] } = .error .nameTooLong :=
    FileTree.locate_of_long rfl hname hlong rfl
  have hnul : Path.hasNul { slashes := 0, parts := [longName] } = false := by
    have hmem : '\x00' ∉ longName.toList := by
      rw [toList_longName]
      exact fun hmem => absurd (List.eq_of_mem_replicate hmem) (by decide)
    simpa [Path.hasNul] using hmem
  rw [Store.document, lostSession]
  dsimp only
  rw [FileTree.find?, hnul, hlocate]
  exact ⟨_, rfl⟩

/-- A settings file that cannot be looked up, or three arrays inside one another on a stack of a few
levels. -/
theorem not_exists_currentConfig_of_failures :
    (¬∃ config, lostSession.currentConfig .empty [] = .ok config) ∧
    (fileSession.store.document .empty = .ok [] ∧
      (arrayVisit [Json.tower 1]).IsSound fileSession .empty) ∧
    ¬∃ config, (Session.afterAll [arrayVisit [Json.tower 1]] (fileSession, .empty)).1.currentConfig
      (Session.afterAll [arrayVisit [Json.tower 1]] (fileSession, .empty)).2 [] = .ok config := by
  have hreadable : (Json.arr [Json.tower 1]).IsReadable := Json.isReadable_tower 2
  refine ⟨?_, ⟨rfl, ?_, ?_⟩, not_exists_currentConfig_of_gap hreadable ?_ ?_ ?_⟩
  · rintro ⟨config, hconfig⟩
    obtain ⟨e, herror⟩ := document_lostSession
    obtain ⟨stored, hstored, -⟩ := Session.resolves_of_currentConfig hconfig
    obtain ⟨document, hdocument, -⟩ := Store.exists_document_of_snapshot hstored
    cases herror.symm.trans hdocument
  · rintro values ⟨⟩
    exact .obj (List.nodup_singleton _) (List.forall_mem_singleton.mpr hreadable.wellFormed)
  · rintro selectionOnly overrides ⟨⟩
  · exact Json.everywhere_tower _ _ _ 2
  · decide
  · decide

end Failures

end StepGlue
