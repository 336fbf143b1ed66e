import StepGlue.Proofs.Json.WellFormed
import StepGlue.Proofs.Session.Layers
import StepGlue.Service.Reply

/-!
# A configuration after an update

An update replaces the settings that some values give by what is read from these, and leaves all
others as they were. That is all there is to it, so updates that are exchanged, or written back as
they were shown, are told by these six settings alone.
-/

namespace StepGlue

open Json (Object)

namespace Config

/-! ### Taking values twice, and in two orders -/

section Takes

variable {α : Type} {reads reads' : Json → α → Prop} {given other old new : Option Json}
  {default before middle middle' after after' : α}

/-- Where at most one of two values is given, it does not matter which is taken first. -/
theorem Takes.comm (hreads : Determines reads) (hapart : given = none ∨ other = none)
    (hfirst : Takes reads given before middle) (hsecond : Takes reads other middle after)
    (hfirst' : Takes reads other before middle') (hsecond' : Takes reads given middle' after') :
    after = after' := by
  rcases hapart with rfl | rfl
  · obtain rfl : middle = before := hfirst
    exact (hsecond.unique hreads hfirst').trans (Eq.symm hsecond')
  · obtain rfl : middle' = before := hfirst'
    exact (show after = middle from hsecond).trans (hfirst.unique hreads hsecond')

/-- A setting over a new layer, told by its value over the old one: what is new is read as the value
that is given says, and without such a value nothing is new. -/
theorem Takes.renewed (hreads : Determines reads) (hbefore : Takes reads old default before)
    (hafter : Takes reads new default after) (hnone : given = none → new = old)
    (hsome : ∀ v, given = some v → ∃ w, new = some w ∧ ∀ a, reads w a → reads' v a) :
    Takes reads' given before after := by
  cases given with
  | none =>
    rw [hnone rfl] at hafter
    exact hafter.unique hreads hbefore
  | some v =>
    obtain ⟨w, rfl, hw⟩ := hsome v rfl
    exact hw after hafter

end Takes

variable [Machine]

/-- The texts that the elements of a value are shown as. -/
def Texts (v : Json) (items : List Json) : Prop :=
  ∃ elements texts, v.elements = .ok elements ∧ elements.mapM Json.display = .ok texts ∧
    items = texts.map .str

def TagOf (v : Json) (framework : Framework) : Prop :=
  Framework.ofJson v = .ok framework

theorem tagOf_of_frameworkOf {text : String} {framework : Framework}
    (h : FrameworkOf (.str text) framework) : TagOf (.str text) framework := by
  obtain ⟨shown, hshown, hframework⟩ := h
  obtain rfl := Except.ok.inj hshown
  exact hframework

theorem determines_texts : Determines Texts := by
  rintro v a b ⟨elements, texts, helements, htexts, rfl⟩
    ⟨elements', texts', helements', htexts', rfl⟩
  obtain rfl := Except.ok.inj (helements.symm.trans helements')
  rw [Except.ok.inj (htexts.symm.trans htexts')]

theorem determines_tagOf : Determines TagOf :=
  fun _ _ _ ha hb => Except.ok.inj (Eq.trans (Eq.symm ha) hb)

/-- Whether the settings that values give are read from these, and all others are as before. -/
structure IsUpdated (before : Config) (values : Object) (after : Config) : Prop where
  packageName : Takes Unchanged (values.given? "packageName") before.packageName after.packageName
  className : Takes Unchanged (values.given? "className") before.className after.className
  baseTestClass : Takes BaseClass (values.given? "baseTestClass") before.baseTestClass
    after.baseTestClass
  imports : Takes Texts (values.given? "imports") before.imports after.imports
  annotations : Takes Texts (values.given? "annotations") before.annotations after.annotations
  framework : Takes TagOf (values.given? "framework") before.framework after.framework

namespace IsUpdated

variable {before middle middle' after after' : Config} {values others : Object}

theorem comm (hapart : ∀ name, values.given? name = none ∨ others.given? name = none)
    (hfirst : before.IsUpdated values middle) (hsecond : middle.IsUpdated others after)
    (hfirst' : before.IsUpdated others middle') (hsecond' : middle'.IsUpdated values after') :
    after = after' :=
  Config.ext
    (hfirst.packageName.comm determines_unchanged (hapart _) hsecond.packageName
      hfirst'.packageName hsecond'.packageName)
    (hfirst.className.comm determines_unchanged (hapart _) hsecond.className hfirst'.className
      hsecond'.className)
    (hfirst.baseTestClass.comm determines_baseClass (hapart _) hsecond.baseTestClass
      hfirst'.baseTestClass hsecond'.baseTestClass)
    (hfirst.imports.comm determines_texts (hapart _) hsecond.imports hfirst'.imports
      hsecond'.imports)
    (hfirst.annotations.comm determines_texts (hapart _) hsecond.annotations hfirst'.annotations
      hsecond'.annotations)
    (hfirst.framework.comm determines_tagOf (hapart _) hsecond.framework hfirst'.framework
      hsecond'.framework)

end IsUpdated

/-! ### What is given after changes -/

end Config

theorem Framework.ofTag?_tag (framework : Framework) :
    Framework.ofTag? framework.tag = some framework := by
  cases framework <;> rfl

theorem Framework.ofJson_eq_ok_iff [Machine] {v : Json} {framework : Framework} :
    Framework.ofJson v = .ok framework ↔ v = .str framework.tag := by
  constructor
  · intro h
    cases v with
    | str text =>
      rw [Framework.ofJson] at h
      split at h
      · rename_i found hfound
        obtain rfl := Except.ok.inj h
        have htag := List.find?_some hfound
        exact congrArg Json.str (beq_iff_eq.mp htag).symm
      · exact nomatch h
    | _ =>
      obtain ⟨_, -, hfails⟩ := bind_eq_ok_iff.mp h
      cases hfails
  · rintro rfl
    rw [Framework.ofJson, Framework.ofTag?_tag]

theorem Framework.isGiven_tag (framework : Framework) : (Json.str framework.tag).isGiven := by
  cases framework <;> rfl

namespace Session

variable {values changes : Object} {name : String} {v : Json}

theorem get?_eq_of_given? {o : Object} (h : o.given? name = some v) :
    o.get? name = some v ∧ v ≠ .null := by
  rw [Object.given?] at h
  split at h
  · cases h
  · cases h
  · rename_i hnull hget
    obtain rfl := Option.some.inj h
    exact ⟨hget, hnull⟩

theorem given?_eq_of_get? {o : Object} (h : o.get? name = some v) (hv : v ≠ .null) :
    o.given? name = some v := by
  rw [Object.given?, h]
  split
  · rename_i hnull
    exact absurd (Option.some.inj hnull) hv
  · rename_i hnone
    cases hnone
  · rename_i hsome
    exact hsome.symm

variable [Machine]

section Update

variable (h : Session.changes values = .ok changes) (stored : Object)
include h

theorem get?_update_of_not_given (hgiven : values.given? name = none) :
    (stored.update changes).get? name = stored.get? name := by
  rw [get?_update_changes h, get?_changes_eq_none h hgiven, Option.none_or]
  rfl

theorem given?_update_of_not_given (hgiven : values.given? name = none) :
    (stored.update changes).given? name = stored.given? name := by
  rw [Object.given?, get?_update_of_not_given h stored hgiven, Object.given?]

/-- A name that is no setting is stored by no change. -/
theorem get?_update_of_not_setting (hname : name ∉ settingNames) :
    (stored.update changes).get? name = stored.get? name := by
  have hkeys : name ∉ PairList.keys changes := by
    rw [keys_storedForms (storedForms_of_changes h)]
    exact fun hmem => hname ((keys_filterMap_sublist settingNames _).subset hmem)
  rw [get?_update_changes h, PairList.get?_eq_none_iff.mpr hkeys, Option.none_or]
  rfl

theorem get?_update_of_name (hname : name ∈ settingNames)
    (hlist : ¬(name = "imports" || name = "annotations")) (hgiven : values.given? name = some v) :
    (stored.update changes).get? name = some v := by
  obtain ⟨w, hform, hget⟩ := exists_get?_changes h hname hgiven
  rw [storedForm, if_neg hlist] at hform
  obtain ⟨-, rfl⟩ := Prod.mk.inj (Except.ok.inj hform)
  rw [get?_update_changes h, hget, Option.some_or]

theorem given?_update_of_name (hname : name ∈ settingNames)
    (hlist : ¬(name = "imports" || name = "annotations")) (hgiven : values.given? name = some v) :
    (stored.update changes).given? name = some v :=
  given?_eq_of_get? (get?_update_of_name h stored hname hlist hgiven) (get?_eq_of_given? hgiven).2

theorem exists_given?_update_of_list (hlist : name = "imports" ∨ name = "annotations")
    (hgiven : values.given? name = some v) :
    ∃ items, Config.Texts v items ∧ (stored.update changes).given? name = some (.arr items) := by
  have hname : name ∈ settingNames := by
    rcases hlist with rfl | rfl <;> decide
  obtain ⟨w, hform, hget⟩ := exists_get?_changes h hname hgiven
  rw [storedForm, if_pos (by simpa using hlist)] at hform
  obtain ⟨elements, helements, hform⟩ := bind_eq_ok_iff.mp hform
  obtain ⟨texts, htexts, hform⟩ := bind_eq_ok_iff.mp hform
  obtain ⟨-, rfl⟩ := Prod.mk.inj (Except.ok.inj hform)
  refine ⟨_, ⟨elements, texts, helements, htexts, rfl⟩, given?_eq_of_get? ?_ (by simp)⟩
  rw [get?_update_changes h, hget, Option.some_or]

theorem frameworkGiven?_update (hgiven : values.given? "framework" = some v) :
    ∃ framework : Framework, v = .str framework.tag ∧
      Config.frameworkGiven? (stored.update changes) = some v := by
  obtain ⟨framework, hframework⟩ := exists_framework_of_changes h hgiven
  obtain rfl := Framework.ofJson_eq_ok_iff.mp hframework
  refine ⟨framework, rfl, ?_⟩
  rw [Config.frameworkGiven?, get?_update_of_name h stored (by decide) (by decide) hgiven,
    Option.filter_some_pos framework.isGiven_tag]

end Update

end Session

namespace Config

variable [Machine]

omit [Machine] in
/-- Without overrides the stored layer is the only one. -/
theorem findSome?_stored {α : Type} {f : Object → Option α} (hempty : f [] = none)
    (stored : Object) : [[], stored].findSome? f = f stored := by
  rw [findSome?_cons_eq_or, findSome?_cons_eq_or, hempty]
  simp

/-- Over stored settings with some changes stands the configuration that was there before, with the
values that gave the changes. -/
theorem isUpdated_of_changes {values changes stored : Object} {defaults before after : Config}
    (h : Session.changes values = .ok changes) (hbefore : Resolves before defaults [[], stored])
    (hafter : Resolves after defaults [[], stored.update changes]) :
    before.IsUpdated values after := by
  obtain ⟨hpackage, hclass, hbase, himports, hannotations, hframework⟩ := hbefore
  obtain ⟨hpackage', hclass', hbase', himports', hannotations', hframework'⟩ := hafter
  rw [findSome?_stored rfl] at hpackage hclass hbase himports hannotations hframework
  rw [findSome?_stored rfl] at hpackage' hclass' hbase' himports' hannotations' hframework'
  have hkept : ∀ name, values.given? name = none →
      (stored.update changes).given? name = stored.given? name :=
    fun _ => Session.given?_update_of_not_given h stored
  have hlist : ∀ name, name = "imports" ∨ name = "annotations" → ∀ v,
      values.given? name = some v → ∃ w, (stored.update changes).given? name = some w ∧
        ∀ items, Elements w items → Texts v items := by
    intro name hname v hgiven
    obtain ⟨texts, htexts, hnew⟩ := Session.exists_given?_update_of_list h stored hname hgiven
    exact ⟨.arr texts, hnew, fun items hitems => Except.ok.inj hitems ▸ htexts⟩
  constructor
  · exact hpackage.renewed determines_unchanged hpackage' (hkept _) fun v hgiven =>
      ⟨v, Session.given?_update_of_name h stored (by decide) (by decide) hgiven, fun _ => id⟩
  · exact hclass.renewed determines_unchanged hclass' (hkept _) fun v hgiven =>
      ⟨v, Session.given?_update_of_name h stored (by decide) (by decide) hgiven, fun _ => id⟩
  · exact hbase.renewed determines_baseClass hbase' (hkept _) fun v hgiven =>
      ⟨v, Session.given?_update_of_name h stored (by decide) (by decide) hgiven, fun _ => id⟩
  · exact himports.renewed determines_elements himports' (hkept _) (hlist _ (.inl rfl))
  · exact hannotations.renewed determines_elements hannotations' (hkept _) (hlist _ (.inr rfl))
  · refine hframework.renewed determines_frameworkOf hframework' (fun hgiven => ?_)
      fun v hgiven => ?_
    · rw [frameworkGiven?, Session.get?_update_of_not_given h stored hgiven, frameworkGiven?]
    · obtain ⟨framework, rfl, hnew⟩ := Session.frameworkGiven?_update h stored hgiven
      exact ⟨_, hnew, fun _ => tagOf_of_frameworkOf⟩

/-! ### Writing a configuration back -/

/-- Whether all settings have their types, and no base class is empty. -/
structure IsTyped (config : Config) : Prop where
  isWellTyped : Reply.isWellTyped config = true
  baseTestClass_ne : config.baseTestClass ≠ some (.str "")

omit [Machine] in
theorem exists_eq_str_of_isText {v : Json} (h : Reply.isText v) : ∃ s, v = .str s := by
  cases v with
  | str s => exact ⟨s, rfl⟩
  | _ => exact nomatch h

omit [Machine] in
theorem exists_map_str_of_all_isText {items : List Json} (h : items.all Reply.isText) :
    ∃ texts : List String, items = texts.map .str := by
  induction items with
  | nil => exact ⟨[], rfl⟩
  | cons item items ih =>
    rw [List.all_cons, Bool.and_eq_true] at h
    obtain ⟨text, rfl⟩ := exists_eq_str_of_isText h.1
    obtain ⟨texts, rfl⟩ := ih h.2
    exact ⟨text :: texts, rfl⟩

theorem mapM_display_map_str (texts : List String) :
    (texts.map Json.str).mapM Json.display = .ok texts := by
  refine mapM_eq_ok_iff.mpr ?_
  rw [List.forall₂_map_left_iff, List.forall₂_same]
  exact fun _ _ => rfl

omit [Machine] in
theorem nodup_keys_toObject (config : Config) : (PairList.keys config.toObject).Nodup :=
  show Session.settingNames.Nodup by decide

section IsTyped

variable {config : Config} (h : config.IsTyped)
include h

omit [Machine] in
/-- The settings of a typed configuration are lists of texts and texts. -/
theorem IsTyped.forall_mem_toObject : ∀ setting ∈ config.toObject,
    ¬(setting.1 = "imports" || setting.1 = "annotations") ∧ (∃ s, setting.2 = .str s) ∨
      (setting.1 = "imports" || setting.1 = "annotations") ∧
        ∃ items : List Json, setting.2 = .arr items ∧ items.all Reply.isText := by
  have hwell := h.isWellTyped
  simp only [Reply.isWellTyped, Bool.and_eq_true] at hwell
  obtain ⟨⟨⟨⟨hpackage, hclass⟩, hbase⟩, himports⟩, hannotations⟩ := hwell
  have hbaseText : Reply.isText (config.baseTestClass.getD (.str "")) := by
    cases hnone : config.baseTestClass with
    | none => rfl
    | some base =>
      rw [hnone] at hbase
      exact hbase
  rw [toObject]
  refine List.forall_mem_cons.mpr ⟨.inl ⟨by simp, exists_eq_str_of_isText hpackage⟩, ?_⟩
  refine List.forall_mem_cons.mpr ⟨.inl ⟨by simp, exists_eq_str_of_isText hclass⟩, ?_⟩
  refine List.forall_mem_cons.mpr ⟨.inl ⟨by simp, exists_eq_str_of_isText hbaseText⟩, ?_⟩
  refine List.forall_mem_cons.mpr ⟨.inr ⟨by simp, _, rfl, himports⟩, ?_⟩
  refine List.forall_mem_cons.mpr ⟨.inr ⟨by simp, _, rfl, hannotations⟩, ?_⟩
  exact List.forall_mem_singleton.mpr (.inl ⟨by simp, _, rfl⟩)

omit [Machine] in
theorem IsTyped.baseClass_toObject :
    BaseClass (config.baseTestClass.getD (.str "")) config.baseTestClass := by
  obtain ⟨hwell, hne⟩ := h
  simp only [Reply.isWellTyped, Bool.and_eq_true] at hwell
  cases hbase : config.baseTestClass with
  | none => rfl
  | some base =>
    rw [hbase] at hwell hne
    obtain ⟨name, rfl⟩ := exists_eq_str_of_isText hwell.1.1.2
    have hgiven : (Json.str name).isGiven = true := by
      rw [Json.isGiven, bne_iff_ne]
      rintro rfl
      exact hne rfl
    exact (if_pos hgiven).symm

omit [Machine] in
theorem IsTyped.wellFormed_toObject : (Json.obj config.toObject).WellFormed := by
  refine .obj config.nodup_keys_toObject fun setting hmem => ?_
  rcases h.forall_mem_toObject setting hmem with ⟨-, s, hs⟩ | ⟨-, items, hitems, htexts⟩
  · rw [hs]
    exact .str s
  · rw [hitems]
    refine .arr fun item hitem => ?_
    obtain ⟨s, rfl⟩ := exists_eq_str_of_isText (List.all_eq_true.mp htexts item hitem)
    exact .str s

omit [Machine] in
theorem IsTyped.height_le : ∀ setting ∈ config.toObject, setting.2.height ≤ 2 := by
  intro setting hmem
  rcases h.forall_mem_toObject setting hmem with ⟨-, s, hs⟩ | ⟨-, items, hitems, htexts⟩
  · rw [hs]
    exact show 1 ≤ 2 by decide
  · rw [hitems, Json.height, Json.levels, Nat.add_le_add_iff_right]
    refine within_some_iff.mp
      (Json.within_itemsLevels_iff.mpr ⟨within_zero _, fun item hitem => ?_⟩)
    obtain ⟨s, rfl⟩ := exists_eq_str_of_isText (List.all_eq_true.mp htexts item hitem)
    exact within_some_iff.mpr (le_refl 1)

omit [Machine] in
theorem IsTyped.given?_toObject {name : String} {v : Json} (hmem : (name, v) ∈ config.toObject) :
    config.toObject.given? name = some v := by
  refine Session.given?_eq_of_get?
    ((PairList.get?_eq_some_iff config.nodup_keys_toObject).mpr hmem) ?_
  rintro rfl
  rcases h.forall_mem_toObject _ hmem with ⟨-, s, hs⟩ | ⟨-, items, hitems, -⟩
  · exact nomatch hs
  · exact nomatch hitems

omit [Machine] in
theorem IsTyped.givenSettings_toObject :
    Session.givenSettings config.toObject = config.toObject := by
  rw [Session.givenSettings, show Session.settingNames = config.toObject.map Prod.fst from rfl,
    List.filterMap_map]
  conv_rhs => rw [← List.filterMap_some (l := config.toObject)]
  refine List.filterMap_congr fun setting hmem => ?_
  rw [Function.comp_apply, h.given?_toObject (v := setting.2) hmem]
  rfl

/-- The settings of a typed configuration are stored as they are. -/
theorem IsTyped.changes_toObject : Session.changes config.toObject = .ok config.toObject := by
  have hforms : config.toObject.mapM Session.storedForm = .ok config.toObject := by
    refine mapM_eq_ok_iff.mpr (List.forall₂_same.mpr fun setting hmem => ?_)
    obtain ⟨name, v⟩ := setting
    rcases h.forall_mem_toObject _ hmem with ⟨hname, -⟩ | ⟨hname, items, hitems, htexts⟩
    · rw [Session.storedForm, if_neg hname]
    · obtain rfl : v = .arr items := hitems
      obtain ⟨texts, rfl⟩ := exists_map_str_of_all_isText htexts
      rw [Session.storedForm, if_pos hname]
      exact bind_eq_ok_iff.mpr ⟨_, rfl, bind_eq_ok_iff.mpr ⟨texts, mapM_display_map_str texts, rfl⟩⟩
  have hframework : ("framework", .str config.framework.tag) ∈ config.toObject := by
    simp [toObject]
  rw [Session.changes, h.given?_toObject hframework, h.givenSettings_toObject, hforms]
  dsimp only
  rw [Framework.ofJson_eq_ok_iff.mpr rfl]
  rfl

/-- Nothing that is stored shows through a typed configuration that is written over it. -/
theorem IsTyped.resolves_toObject (defaults : Config) (stored : Object) :
    Resolves config defaults [[], stored.update config.toObject] := by
  have hget : ∀ name v, (name, v) ∈ config.toObject →
      (stored.update config.toObject).get? name = some v := by
    intro name v hmem
    have hself := (PairList.get?_eq_some_iff config.nodup_keys_toObject).mpr hmem
    exact (PairList.get?_update config.nodup_keys_toObject stored name).trans
      (by rw [hself, Option.some_or])
  have hgiven : ∀ name v, (name, v) ∈ config.toObject →
      (stored.update config.toObject).given? name = some v := fun name v hmem =>
    Session.given?_eq_of_get? (hget name v hmem)
      (Session.get?_eq_of_given? (h.given?_toObject hmem)).2
  constructor
  · rw [findSome?_stored rfl, hgiven "packageName" config.packageName (by simp [toObject])]
    rfl
  · rw [findSome?_stored rfl, hgiven "className" config.className (by simp [toObject])]
    rfl
  · rw [findSome?_stored rfl,
      hgiven "baseTestClass" (config.baseTestClass.getD (.str "")) (by simp [toObject])]
    exact h.baseClass_toObject
  · rw [findSome?_stored rfl, hgiven "imports" (.arr config.imports) (by simp [toObject])]
    rfl
  · rw [findSome?_stored rfl, hgiven "annotations" (.arr config.annotations) (by simp [toObject])]
    rfl
  · rw [findSome?_stored rfl, frameworkGiven?,
      hget "framework" (.str config.framework.tag) (by simp [toObject]),
      Option.filter_some_pos config.framework.isGiven_tag]
    exact frameworkOf_of_ofJson (Framework.ofJson_eq_ok_iff.mpr rfl)

end IsTyped

end Config

end StepGlue
