import StepGlue.Proofs.Session.Renewal
import StepGlue.Proofs.Session.Update
import StepGlue.Proofs.Settings.Update

/-!
# Laws of updates

What an update returns is what the configuration before it becomes with the given settings, and the
store shows the same from then on. So an update can be repeated, updates of different settings can
be exchanged, and writing back a configuration restores it.
-/

namespace StepGlue

open Json (Object)

variable [Machine]

/-! ### Changes that can be stored -/

namespace Session

variable {values changes : Object} {name : String}

omit [Machine] in
theorem wellFormed_of_given? (hvalues : (Json.obj values).WellFormed) {v : Json}
    (hgiven : values.given? name = some v) : v.WellFormed :=
  hvalues.member (name, v) (PairList.mem_of_get?_eq_some (get?_eq_of_given? hgiven).1)

theorem wellFormed_of_storedForm {v w : Json} (hv : v.WellFormed)
    (h : storedForm (name, v) = .ok (name, w)) : w.WellFormed := by
  rw [storedForm] at h
  split at h
  · obtain ⟨elements, -, h⟩ := bind_eq_ok_iff.mp h
    obtain ⟨texts, -, h⟩ := bind_eq_ok_iff.mp h
    obtain ⟨-, rfl⟩ := Prod.mk.inj (Except.ok.inj h)
    refine .arr fun text htext => ?_
    obtain ⟨_, -, rfl⟩ := List.mem_map.mp htext
    exact .str _
  · obtain ⟨-, rfl⟩ := Prod.mk.inj (Except.ok.inj h)
    exact hv

/-- Each change is the stored form of a setting that the values give. -/
theorem exists_given?_of_mem_changes (h : Session.changes values = .ok changes) {w : Json}
    (hmem : (name, w) ∈ changes) :
    name ∈ settingNames ∧
      ∃ v, values.given? name = some v ∧ storedForm (name, v) = .ok (name, w) := by
  have hforms := storedForms_of_changes h
  have hname : name ∈ settingNames := by
    have hkeys : name ∈ PairList.keys changes := List.mem_map.mpr ⟨_, hmem, rfl⟩
    rw [keys_storedForms hforms] at hkeys
    exact (keys_filterMap_sublist settingNames _).subset hkeys
  cases hgiven : values.given? name with
  | none =>
    have hnone := get?_changes_eq_none h hgiven
    rw [(PairList.get?_eq_some_iff (nodup_keys_changes h)).mpr hmem] at hnone
    exact nomatch hnone
  | some v =>
    obtain ⟨w', hform, hget⟩ := exists_get?_changes h hname hgiven
    rw [(PairList.get?_eq_some_iff (nodup_keys_changes h)).mpr hmem] at hget
    obtain rfl := Option.some.inj hget
    exact ⟨hname, v, rfl, hform⟩

theorem wellFormed_changes (hvalues : (Json.obj values).WellFormed)
    (h : Session.changes values = .ok changes) : (Json.obj changes).WellFormed := by
  refine .obj (nodup_keys_changes h) fun member hmem => ?_
  obtain ⟨-, v, hgiven, hform⟩ := exists_given?_of_mem_changes h hmem
  exact wellFormed_of_storedForm (wellFormed_of_given? hvalues hgiven) hform

end Session

/-! ### One update -/

namespace Desk

/-- The same desk at another time. -/
def later (desk : Desk) (now : String) : Desk :=
  { desk with now }

end Desk

/-- The configuration depends on the store only by what a snapshot gives. -/
theorem Session.currentConfig_congr {s : Session} {store : Store} {files files' : FileTree}
    {overrides : Object} (hsnapshot : store.snapshot files' = s.store.snapshot files) :
    { s with store }.currentConfig files' overrides = s.currentConfig files overrides := by
  rw [Session.currentConfig, hsnapshot, Session.currentConfig]

namespace Command

variable {values others : Object} {desk after : Desk} {before config : Config}

/-- An update moves the store to no other file or section, and leaves the rest of the session
alone. -/
theorem exists_memory_updateSettings (values : Object) (desk : Desk) :
    ∃ memory, ((updateSettings values).runOn desk).2.session =
      { desk.session with store := { desk.session.store with memory } } := by
  cases hchanges : Session.changes values with
  | error e =>
    rw [runOn_updateSettings_of_error hchanges]
    exact ⟨desk.session.store.memory, rfl⟩
  | ok changes =>
    by_cases hany : changes = []
    · subst hany
      rw [runOn_updateSettings_of_nil hchanges]
      exact ⟨desk.session.store.memory, rfl⟩
    · rcases hupdate : desk.session.store.update desk.files desk.now changes with
        ⟨stored, store, files⟩
      obtain ⟨memory, hmemory⟩ :=
        desk.session.store.exists_memory_update desk.files desk.now changes
      rw [hupdate] at hmemory
      rw [runOn_updateSettings hchanges hany hupdate]
      exact ⟨memory, congrArg (fun store => { desk.session with store }) hmemory⟩

theorem holdsSection_of_updateSettings (hsection : desk.session.store.HoldsSection)
    {result : Except Failure Config} (h : (updateSettings values).runOn desk = (result, after)) :
    after.session.store.HoldsSection := by
  obtain ⟨memory, hmemory⟩ := exists_memory_updateSettings values desk
  rw [h] at hmemory
  dsimp only at hmemory
  rw [hmemory]
  exact hsection

/-- An update that returns a configuration has stored its changes, and the configuration is what the
store gives from then on. -/
theorem stored_of_updateSettings (hsection : desk.session.store.HoldsSection)
    (hvalues : (Json.obj values).WellFormed)
    (h : (updateSettings values).runOn desk = (.ok config, after)) :
    after.config = .ok config ∧ after.session.defaults = desk.session.defaults ∧
      ∃ changes document, Session.changes values = .ok changes ∧
        desk.session.store.document desk.files = .ok document ∧
        after.snapshot = .ok ((desk.session.store.sectionOf document).update changes) := by
  cases hchanges : Session.changes values with
  | error e => exact nomatch (runOn_updateSettings_of_error hchanges desk).symm.trans h
  | ok changes =>
    by_cases hany : changes = []
    · subst hany
      rw [runOn_updateSettings_of_nil hchanges] at h
      obtain ⟨hconfig, rfl⟩ := Prod.mk.inj h
      obtain ⟨stored, hsnapshot, -⟩ := bind_eq_ok_iff.mp hconfig
      obtain ⟨document, hdocument, rfl⟩ := Store.exists_document_of_snapshot hsnapshot
      exact ⟨hconfig, rfl, [], document, rfl, hdocument, hsnapshot⟩
    · rcases hupdate : desk.session.store.update desk.files desk.now changes with
        ⟨stored, store, files⟩
      rw [runOn_updateSettings hchanges hany hupdate] at h
      obtain ⟨hresult, rfl⟩ := Prod.mk.inj h
      cases stored with
      | error e => exact nomatch hresult
      | ok updated =>
        obtain ⟨hsnapshot, document, hdocument, rfl⟩ :=
          Store.snapshot_of_update hsection (Session.wellFormed_changes hvalues hchanges) hupdate
        exact ⟨hresult, rfl, changes, document, rfl, hdocument, hsnapshot⟩

theorem isUpdated_of_updateSettings (hsection : desk.session.store.HoldsSection)
    (hvalues : (Json.obj values).WellFormed) (hbefore : desk.config = .ok before)
    (h : (updateSettings values).runOn desk = (.ok config, after)) :
    before.IsUpdated values config := by
  obtain ⟨hafter, hdefaults, changes, document, hchanges, hdocument, hsnapshot⟩ :=
    stored_of_updateSettings hsection hvalues h
  obtain ⟨stored, hstored, hresolves⟩ := Session.resolves_of_currentConfig hbefore
  obtain ⟨stored', hstored', hresolves'⟩ := Session.resolves_of_currentConfig hafter
  obtain rfl := Store.sectionOf_eq_of_snapshot hdocument hstored
  obtain rfl := Except.ok.inj (hsnapshot.symm.trans hstored')
  rw [hdefaults] at hresolves'
  exact Config.isUpdated_of_changes hchanges hresolves hresolves'

/-- Names that are no settings are left as they are. -/
theorem get?_of_updateSettings (hsection : desk.session.store.HoldsSection)
    (hvalues : (Json.obj values).WellFormed)
    (h : (updateSettings values).runOn desk = (.ok config, after)) {stored : Object}
    (hstored : desk.snapshot = .ok stored) :
    ∃ stored', after.snapshot = .ok stored' ∧
      ∀ name ∉ Session.settingNames, stored'.get? name = stored.get? name := by
  obtain ⟨-, -, changes, document, hchanges, hdocument, hsnapshot⟩ :=
    stored_of_updateSettings hsection hvalues h
  obtain rfl := Store.sectionOf_eq_of_snapshot hdocument hstored
  exact ⟨_, hsnapshot, fun name hname => Session.get?_update_of_not_setting hchanges _ hname⟩

/-- Updates with the same values leave the configuration as the first has made it. -/
theorem updateSettings_again (hsection : desk.session.store.HoldsSection)
    (hvalues : (Json.obj values).WellFormed)
    (h : (updateSettings values).runOn desk = (.ok config, after)) {now : String}
    (hnow : Text.isEncodable now) :
    ((updateSettings values).runOn (after.later now)).1 = .ok config := by
  cases hchanges : Session.changes values with
  | error e => exact nomatch (runOn_updateSettings_of_error hchanges desk).symm.trans h
  | ok changes =>
    by_cases hany : changes = []
    · subst hany
      rw [runOn_updateSettings_of_nil hchanges] at h ⊢
      obtain ⟨hconfig, rfl⟩ := Prod.mk.inj h
      exact hconfig
    · rcases hupdate : desk.session.store.update desk.files desk.now changes with
        ⟨stored, store, files⟩
      rw [runOn_updateSettings hchanges hany hupdate] at h
      obtain ⟨hresult, rfl⟩ := Prod.mk.inj h
      cases stored with
      | error e => exact nomatch hresult
      | ok updated =>
        have hwell := Session.wellFormed_changes hvalues hchanges
        obtain ⟨store', files', hagain⟩ := Store.exists_update_again hsection hwell hupdate hnow
        obtain ⟨hbefore, -⟩ := Store.snapshot_of_update hsection hwell hupdate
        have hsection' := holdsSection_of_updateSettings hsection
          (runOn_updateSettings hchanges hany hupdate)
        obtain ⟨hafter, -⟩ := Store.snapshot_of_update hsection' hwell hagain
        have hrun : (updateSettings values).runOn ((desk.withStore store files).later now) = _ :=
          runOn_updateSettings hchanges hany hagain
        rw [hrun]
        exact (Session.currentConfig_congr (hafter.trans hbefore.symm)).trans hresult

/-- Updates that have no setting in common can be made in either order. -/
theorem updateSettings_comm {first second first' second' : Desk} {middle middle' config' : Config}
    {now now' : String} (hsection : desk.session.store.HoldsSection)
    (hvalues : (Json.obj values).WellFormed) (hothers : (Json.obj others).WellFormed)
    (hapart : ∀ name, values.given? name = none ∨ others.given? name = none)
    (hbefore : desk.config = .ok before)
    (hfirst : (updateSettings values).runOn desk = (.ok middle, first))
    (hsecond : (updateSettings others).runOn (first.later now) = (.ok config, second))
    (hfirst' : (updateSettings others).runOn desk = (.ok middle', first'))
    (hsecond' : (updateSettings values).runOn (first'.later now') = (.ok config', second')) :
    config = config' := by
  have hmiddle : (first.later now).config = .ok middle :=
    (stored_of_updateSettings hsection hvalues hfirst).1
  have hmiddle' : (first'.later now').config = .ok middle' :=
    (stored_of_updateSettings hsection hothers hfirst').1
  have hsectionFirst : (first.later now).session.store.HoldsSection :=
    show first.session.store.HoldsSection from holdsSection_of_updateSettings hsection hfirst
  have hsectionFirst' : (first'.later now').session.store.HoldsSection :=
    show first'.session.store.HoldsSection from holdsSection_of_updateSettings hsection hfirst'
  have hupdated : middle.IsUpdated others config :=
    isUpdated_of_updateSettings hsectionFirst hothers hmiddle hsecond
  have hupdated' : middle'.IsUpdated values config' :=
    isUpdated_of_updateSettings hsectionFirst' hvalues hmiddle' hsecond'
  exact (isUpdated_of_updateSettings hsection hvalues hbefore hfirst).comm hapart hupdated
    (isUpdated_of_updateSettings hsection hothers hbefore hfirst') hupdated'

section WritingBack

variable {written : Config} (hwritten : written.IsTyped)
include hwritten

/-- After an update with a configuration, this is the configuration. -/
theorem eq_of_updateSettings_toObject (hsection : desk.session.store.HoldsSection)
    (h : (updateSettings written.toObject).runOn desk = (.ok config, after)) :
    config = written ∧ after.config = .ok written := by
  obtain ⟨hafter, -, changes, document, hchanges, -, hsnapshot⟩ :=
    stored_of_updateSettings hsection hwritten.wellFormed_toObject h
  obtain rfl := Except.ok.inj (hwritten.changes_toObject.symm.trans hchanges)
  obtain ⟨stored, hstored, hresolves⟩ := Session.resolves_of_currentConfig hafter
  obtain rfl := Except.ok.inj (hsnapshot.symm.trans hstored)
  obtain rfl := hresolves.unique (hwritten.resolves_toObject _ _)
  exact ⟨rfl, hafter⟩

/-- An update with a configuration succeeds if the store takes it. -/
theorem updateSettings_toObject_of_update (hsection : desk.session.store.HoldsSection)
    {updated : Object} {store : Store} {files : FileTree}
    (hupdate : desk.session.store.update desk.files desk.now written.toObject =
      (.ok updated, store, files)) :
    ((updateSettings written.toObject).runOn desk).1 = .ok written := by
  have hany : written.toObject ≠ [] := List.cons_ne_nil _ _
  obtain ⟨hsnapshot, document, -, rfl⟩ :=
    Store.snapshot_of_update hsection hwritten.wellFormed_toObject hupdate
  have hgiven : ∀ setting ∈ written.toObject, written.toObject.given? setting.1 ≠ none :=
    fun setting hmem => by
      rw [hwritten.given?_toObject (v := setting.2) hmem]
      exact nofun
  have hfails := exists_error_iff_of_stored hwritten.changes_toObject hany hupdate hsnapshot
  cases hresult : ((updateSettings written.toObject).runOn desk).1 with
  | error e =>
    refine absurd ⟨fun hnone => ?_, fun hnone => ?_, fun hnone => ?_⟩ (hfails.mp ⟨e, hresult⟩)
    · exact absurd hnone (hgiven ("imports", .arr written.imports) (by simp [Config.toObject]))
    · exact absurd hnone
        (hgiven ("annotations", .arr written.annotations) (by simp [Config.toObject]))
    · exact absurd hnone
        (hgiven ("framework", .str written.framework.tag) (by simp [Config.toObject]))
  | ok config =>
    rw [(eq_of_updateSettings_toObject hwritten hsection (Prod.ext hresult rfl)).1]

theorem updateSettings_toObject_inMemory (hpath : desk.session.store.path = none)
    {stored : Object} (hstored : desk.snapshot = .ok stored) :
    ((updateSettings written.toObject).runOn desk).1 = .ok written := by
  have hsection : desk.session.store.HoldsSection := fun hfile => absurd hpath hfile
  rw [Desk.snapshot, Store.snapshot_inMemory hpath] at hstored
  obtain ⟨hone, hlow⟩ := Json.within_obj_iff.mp (Store.copy_eq_ok_iff.mp hstored).1
  have hcopy : Store.copy (desk.session.store.memory.update written.toObject) =
      .ok (desk.session.store.memory.update written.toObject) :=
    Store.copy_of_within (Json.within_obj_iff.mpr ⟨hone, PairList.forall_mem_update hlow
      fun setting hmem => Machine.within_copied_three.of_le
        (Nat.succ_le_succ (hwritten.height_le setting hmem))⟩)
  have hupdate := Store.update_inMemory hpath desk.files desk.now written.toObject
  rw [Store.setInMemory, hcopy] at hupdate
  exact updateSettings_toObject_of_update hwritten hsection hupdate

end WritingBack

end Command

end StepGlue
