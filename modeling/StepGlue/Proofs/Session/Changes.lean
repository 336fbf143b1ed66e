import StepGlue.Proofs.Except
import StepGlue.Proofs.PairList
import StepGlue.Session.Basic

/-!
# Changes to the settings

A configuration can be made of stored settings if three of them can be read: the two lists and the
framework. Changes that are taken hold these three in a form that can be read, so only settings that
they leave alone stand in the way.
-/

namespace StepGlue

open Json (Object)

/-! ### Layers -/

namespace Config

variable {values : Object} {below : Config}

theorem exists_listOver_iff {name : String} {below : List Json} :
    (∃ items, listOver values name below = .ok items) ↔
      ∀ v, values.given? name = some v → ∃ items, v.elements = .ok items := by
  rw [listOver]
  cases values.given? name with
  | none => simp
  | some v => simp

variable [Machine]

/-- Whether a value is shown as the tag of a framework. -/
def FrameworkOf (v : Json) (framework : Framework) : Prop :=
  ∃ text, v.display = .ok text ∧ Framework.ofJson (.str text) = .ok framework

/-- What is read as a framework is shown as its tag. -/
theorem frameworkOf_of_ofJson {v : Json} {framework : Framework}
    (hv : Framework.ofJson v = .ok framework) : FrameworkOf v framework := by
  cases v with
  | str text => exact ⟨text, rfl, hv⟩
  | _ =>
    obtain ⟨_, -, hfails⟩ := bind_eq_ok_iff.mp hv
    cases hfails

theorem exists_frameworkOver_iff {below : Framework} :
    (∃ framework, frameworkOver values below = .ok framework) ↔
      ∀ v, values.get? "framework" = some v → v.isGiven →
        ∃ framework, FrameworkOf v framework := by
  rw [frameworkOver]
  cases values.get? "framework" with
  | none => simp
  | some v =>
    by_cases hgiven : v.isGiven
    · simp [hgiven, bind_eq_ok_iff, FrameworkOf]
    · simp [hgiven]

theorem exists_layer_iff : (∃ config, below.layer values = .ok config) ↔
    (∃ imports, listOver values "imports" below.imports = .ok imports) ∧
    (∃ annotations, listOver values "annotations" below.annotations = .ok annotations) ∧
    ∃ framework, frameworkOver values below.framework = .ok framework := by
  rw [layer]
  constructor
  · rintro ⟨config, h⟩
    obtain ⟨imports, himports, h⟩ := bind_eq_ok_iff.mp h
    obtain ⟨annotations, hannotations, h⟩ := bind_eq_ok_iff.mp h
    obtain ⟨framework, hframework, -⟩ := bind_eq_ok_iff.mp h
    exact ⟨⟨imports, himports⟩, ⟨annotations, hannotations⟩, ⟨framework, hframework⟩⟩
  · rintro ⟨⟨imports, himports⟩, ⟨annotations, hannotations⟩, ⟨framework, hframework⟩⟩
    rw [himports, hannotations, hframework]
    exact ⟨_, rfl⟩

end Config

/-! ### Changes -/

namespace Session

variable {values changes : Object} {name : String}

/-- A list of names with what is known of each, as pairs. -/
theorem get?_filterMap {names : List String} {known : String → Option Json} :
    PairList.get? (names.filterMap fun name => (known name).map (name, ·)) name =
      if name ∈ names then known name else none := by
  induction names with
  | nil => rfl
  | cons first names ih =>
    cases hknown : known first with
    | none =>
      rw [List.filterMap_cons_none (by rw [hknown]; rfl), ih]
      by_cases hname : name = first
      · simp [hname, hknown]
      · simp [hname]
    | some v =>
      rw [List.filterMap_cons_some (by rw [hknown]; rfl), PairList.get?, ih]
      by_cases hname : name = first
      · simp [hname, hknown]
      · simp [hname]

theorem get?_givenSettings (hname : name ∈ settingNames) :
    PairList.get? (givenSettings values) name = values.given? name := by
  rw [givenSettings, get?_filterMap, if_pos hname]

theorem keys_filterMap_sublist (names : List String) (known : String → Option Json) :
    List.Sublist (PairList.keys (names.filterMap fun name => (known name).map (name, ·)))
      names := by
  induction names with
  | nil => exact .slnil
  | cons first names ih =>
    cases hknown : known first with
    | none =>
      rw [List.filterMap_cons_none (by rw [hknown]; rfl)]
      exact ih.cons first
    | some v =>
      rw [List.filterMap_cons_some (by rw [hknown]; rfl)]
      exact ih.cons_cons first

theorem nodup_keys_givenSettings (values : Object) :
    (PairList.keys (givenSettings values)).Nodup :=
  (keys_filterMap_sublist settingNames _).nodup (by decide)

variable [Machine]

theorem fst_eq_of_storedForm {setting stored : String × Json}
    (h : storedForm setting = .ok stored) : stored.1 = setting.1 := by
  obtain ⟨name, v⟩ := setting
  rw [storedForm] at h
  split at h
  · obtain ⟨elements, -, h⟩ := bind_eq_ok_iff.mp h
    obtain ⟨texts, -, h⟩ := bind_eq_ok_iff.mp h
    exact (congrArg Prod.fst (Except.ok.inj h)).symm
  · exact (congrArg Prod.fst (Except.ok.inj h)).symm

section Forms

variable {settings stored : Object}
  (h : List.Forall₂ (fun setting stored => storedForm setting = .ok stored) settings stored)
include h

theorem keys_storedForms : PairList.keys stored = PairList.keys settings := by
  induction h with
  | nil => rfl
  | cons hfirst _ ih =>
    rw [PairList.keys, PairList.keys, List.map_cons, List.map_cons, fst_eq_of_storedForm hfirst]
    exact congrArg _ ih

/-- A setting that is there has its stored form. -/
theorem exists_get?_storedForms {v : Json} (hv : PairList.get? settings name = some v) :
    ∃ w, storedForm (name, v) = .ok (name, w) ∧ PairList.get? stored name = some w := by
  induction h with
  | nil => exact nomatch hv
  | @cons setting form settings stored hfirst _ ih =>
    obtain ⟨first, old⟩ := setting
    obtain ⟨first', new⟩ := form
    obtain rfl : first' = first := fst_eq_of_storedForm hfirst
    rw [PairList.get?] at hv ⊢
    by_cases hname : name = first'
    · subst hname
      rw [if_pos rfl, Option.some.injEq] at hv
      exact ⟨new, hv ▸ hfirst, if_pos rfl⟩
    · rw [if_neg hname] at hv ⊢
      exact ih hv

end Forms

section Changes

variable (h : Session.changes values = .ok changes)
include h

theorem storedForms_of_changes :
    List.Forall₂ (fun setting stored => storedForm setting = .ok stored) (givenSettings values)
      changes := by
  rw [Session.changes] at h
  split at h
  · obtain ⟨framework, -, h⟩ := bind_eq_ok_iff.mp h
    exact mapM_eq_ok_iff.mp h
  · exact mapM_eq_ok_iff.mp h

theorem nodup_keys_changes : (PairList.keys changes).Nodup := by
  rw [keys_storedForms (storedForms_of_changes h)]
  exact nodup_keys_givenSettings values

/-- A setting that is not given is not changed. -/
theorem get?_changes_eq_none (hgiven : values.given? name = none) :
    PairList.get? changes name = none := by
  rw [PairList.get?_eq_none_iff, keys_storedForms (storedForms_of_changes h),
    ← PairList.get?_eq_none_iff, givenSettings, get?_filterMap, hgiven, ite_self]

theorem exists_get?_changes (hname : name ∈ settingNames) {v : Json}
    (hgiven : values.given? name = some v) :
    ∃ w, storedForm (name, v) = .ok (name, w) ∧ PairList.get? changes name = some w :=
  exists_get?_storedForms (storedForms_of_changes h) ((get?_givenSettings hname).trans hgiven)

theorem exists_framework_of_changes {v : Json} (hgiven : values.given? "framework" = some v) :
    ∃ framework, Framework.ofJson v = .ok framework := by
  rw [Session.changes, hgiven] at h
  obtain ⟨framework, hframework, -⟩ := bind_eq_ok_iff.mp h
  exact ⟨framework, hframework⟩

end Changes

/-- Whether the settings that some values leave alone can be read. -/
structure LeavesReadable (stored values : Object) : Prop where
  imports : values.given? "imports" = none →
    ∃ imports, Config.listOver stored "imports" [] = .ok imports
  annotations : values.given? "annotations" = none →
    ∃ annotations, Config.listOver stored "annotations" [] = .ok annotations
  framework : values.given? "framework" = none →
    ∃ framework, Config.frameworkOver stored .cucumber = .ok framework

section Update

variable {stored : Object} (h : Session.changes values = .ok changes)
include h

theorem get?_update_changes (stored : Object) (name : String) :
    (stored.update changes).get? name =
      (PairList.get? changes name).or (PairList.get? stored name) :=
  PairList.get?_update (nodup_keys_changes h) stored name

theorem exists_listOver_update_iff (hlist : name = "imports" ∨ name = "annotations")
    (below : List Json) :
    (∃ items, Config.listOver (stored.update changes) name below = .ok items) ↔
      (values.given? name = none → ∃ items, Config.listOver stored name [] = .ok items) := by
  have hget := get?_update_changes h stored name
  rw [Config.exists_listOver_iff, Config.exists_listOver_iff]
  cases hgiven : values.given? name with
  | none =>
    rw [get?_changes_eq_none h hgiven, Option.none_or] at hget
    rw [Object.given?, hget]
    exact ⟨fun hstored _ => hstored, fun hstored => hstored rfl⟩
  | some old =>
    have hname : name ∈ settingNames := by
      rcases hlist with rfl | rfl <;> decide
    obtain ⟨new, hform, hnew⟩ := exists_get?_changes h hname hgiven
    rw [storedForm, if_pos (by simpa using hlist)] at hform
    obtain ⟨elements, -, hform⟩ := bind_eq_ok_iff.mp hform
    obtain ⟨texts, -, hform⟩ := bind_eq_ok_iff.mp hform
    obtain ⟨-, rfl⟩ := Prod.mk.inj (Except.ok.inj hform)
    rw [hnew, Option.some_or] at hget
    refine iff_of_true (fun v hv => ?_) nofun
    rw [Object.given?, hget] at hv
    obtain rfl := Option.some.inj hv
    exact ⟨_, rfl⟩

theorem exists_frameworkOver_update_iff (below : Framework) :
    (∃ framework, Config.frameworkOver (stored.update changes) below = .ok framework) ↔
      (values.given? "framework" = none →
        ∃ framework, Config.frameworkOver stored .cucumber = .ok framework) := by
  have hget := get?_update_changes h stored "framework"
  rw [Config.exists_frameworkOver_iff, Config.exists_frameworkOver_iff]
  cases hgiven : values.given? "framework" with
  | none =>
    rw [get?_changes_eq_none h hgiven, Option.none_or] at hget
    rw [hget]
    exact ⟨fun hstored _ => hstored, fun hstored => hstored rfl⟩
  | some old =>
    obtain ⟨new, hform, hnew⟩ := exists_get?_changes h (by decide) hgiven
    obtain ⟨framework, hframework⟩ := exists_framework_of_changes h hgiven
    rw [storedForm, if_neg (by decide)] at hform
    obtain ⟨-, rfl⟩ := Prod.mk.inj (Except.ok.inj hform)
    rw [hnew, Option.some_or] at hget
    refine iff_of_true (fun v hv _ => ?_) nofun
    obtain rfl := Option.some.inj (hget.symm.trans hv)
    exact ⟨framework, Config.frameworkOf_of_ofJson hframework⟩

/-- After changes a configuration can be made exactly if what they leave alone can be read. -/
theorem exists_layer_update_iff (below : Config) :
    (∃ config, below.layer (stored.update changes) = .ok config) ↔
      LeavesReadable stored values := by
  rw [Config.exists_layer_iff, exists_listOver_update_iff h (.inl rfl),
    exists_listOver_update_iff h (.inr rfl), exists_frameworkOver_update_iff h]
  exact ⟨fun ⟨himports, hannotations, hframework⟩ => ⟨himports, hannotations, hframework⟩,
    fun hreadable => ⟨hreadable.imports, hreadable.annotations, hreadable.framework⟩⟩

end Update

end Session

end StepGlue
