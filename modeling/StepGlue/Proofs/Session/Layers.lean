import StepGlue.Proofs.Session.Changes

/-!
# Layers of settings

A configuration is what layers of settings make of the defaults, and each setting is told by the
first layer that has it, whatever the layers hold for the others. A layer that cannot be read stands
in the way even where a layer over it has the setting.
-/

namespace StepGlue

open Json (Object)

attribute [ext] Config

namespace Config

/-! ### Taking a value or keeping one -/

section Takes

variable {α : Type} {reads : Json → α → Prop} {given upper lower : Option Json}
  {below middle value value' : α}

/-- Whether a setting is what is read from a value that is given, or without one what it was. -/
def Takes (reads : Json → α → Prop) (given : Option Json) (below value : α) : Prop :=
  match given with
  | some v => reads v value
  | none => value = below

/-- Whether at most one thing is read from a value. -/
def Determines (reads : Json → α → Prop) : Prop :=
  ∀ v a b, reads v a → reads v b → a = b

theorem Takes.unique (hreads : Determines reads) (h : Takes reads given below value)
    (h' : Takes reads given below value') : value = value' := by
  cases given with
  | none => exact Eq.trans h (Eq.symm h')
  | some v => exact hreads v value value' h h'

/-- What is taken over what was taken from below is taken from the first of the two values. -/
theorem Takes.or (hlower : Takes reads lower below middle)
    (hupper : Takes reads upper middle value) : Takes reads (upper.or lower) below value := by
  cases upper with
  | some v => exact hupper
  | none => exact (show value = middle from hupper) ▸ hlower

end Takes

/-! ### What is read from a value -/

def Unchanged (v name : Json) : Prop :=
  name = v

/-- A base class that does not count as given is none. -/
def BaseClass (v : Json) (base : Option Json) : Prop :=
  base = if v.isGiven then some v else none

def Elements (v : Json) (items : List Json) : Prop :=
  v.elements = .ok items

theorem determines_unchanged : Determines Unchanged :=
  fun _ _ _ ha hb => Eq.trans ha (Eq.symm hb)

theorem determines_baseClass : Determines BaseClass :=
  fun _ _ _ ha hb => Eq.trans ha (Eq.symm hb)

theorem determines_elements : Determines Elements :=
  fun _ _ _ ha hb => Except.ok.inj (Eq.trans (Eq.symm ha) hb)

theorem takes_unchanged_getD (given : Option Json) (below : Json) :
    Takes Unchanged given below (given.getD below) := by
  cases given <;> rfl

theorem listOver_eq_ok_iff {values : Object} {name : String} {below items : List Json} :
    listOver values name below = .ok items ↔ Takes Elements (values.given? name) below items := by
  rw [listOver]
  cases values.given? name with
  | none => exact ⟨fun h => (Except.ok.inj h).symm, fun h => congrArg Except.ok (Eq.symm h)⟩
  | some v => exact Iff.rfl

theorem findSome?_cons_eq_or {α : Type} (f : Object → Option α) (layer : Object)
    (layers : List Object) :
    (layer :: layers).findSome? f = (f layer).or (layers.findSome? f) := by
  rw [List.findSome?_cons]
  cases f layer <;> rfl

variable [Machine]

theorem determines_frameworkOf : Determines FrameworkOf := by
  rintro v a b ⟨text, htext, ha⟩ ⟨text', htext', hb⟩
  obtain rfl := Except.ok.inj (htext.symm.trans htext')
  exact Except.ok.inj (ha.symm.trans hb)

/-- The framework setting of a layer, if it counts as given. -/
def frameworkGiven? (layer : Object) : Option Json :=
  (layer.get? "framework").filter Json.isGiven

theorem frameworkOver_eq_ok_iff {values : Object} {below framework : Framework} :
    frameworkOver values below = .ok framework ↔
      Takes FrameworkOf (frameworkGiven? values) below framework := by
  rw [frameworkOver, frameworkGiven?]
  cases values.get? "framework" with
  | none => exact ⟨fun h => (Except.ok.inj h).symm, fun h => congrArg Except.ok (Eq.symm h)⟩
  | some v =>
    dsimp only
    cases hgiven : v.isGiven with
    | true =>
      rw [Option.filter_some_pos hgiven, if_pos rfl]
      exact bind_eq_ok_iff
    | false =>
      rw [Option.filter_some_neg hgiven, if_neg Bool.false_ne_true]
      exact ⟨fun h => (Except.ok.inj h).symm, fun h => congrArg Except.ok (Eq.symm h)⟩

/-! ### One layer over another -/

/-- Whether each setting of a configuration is the one of the first layer that has it, and the
default where none has. The topmost layer is the first. -/
structure Resolves (config defaults : Config) (layers : List Object) : Prop where
  packageName : Takes Unchanged (layers.findSome? (·.given? "packageName")) defaults.packageName
    config.packageName
  className : Takes Unchanged (layers.findSome? (·.given? "className")) defaults.className
    config.className
  baseTestClass : Takes BaseClass (layers.findSome? (·.given? "baseTestClass"))
    defaults.baseTestClass config.baseTestClass
  imports : Takes Elements (layers.findSome? (·.given? "imports")) defaults.imports config.imports
  annotations : Takes Elements (layers.findSome? (·.given? "annotations")) defaults.annotations
    config.annotations
  framework : Takes FrameworkOf (layers.findSome? frameworkGiven?) defaults.framework
    config.framework

/-- Whether the lists and the framework of a layer, as far as it has them, can be read. -/
structure IsReadable (layer : Object) : Prop where
  imports : ∀ v, layer.given? "imports" = some v → ∃ items, Elements v items
  annotations : ∀ v, layer.given? "annotations" = some v → ∃ items, Elements v items
  framework : ∀ v, layer.get? "framework" = some v → v.isGiven →
    ∃ framework, FrameworkOf v framework

theorem exists_layer_iff_isReadable {below : Config} {values : Object} :
    (∃ config, below.layer values = .ok config) ↔ IsReadable values := by
  rw [exists_layer_iff, exists_listOver_iff, exists_listOver_iff, exists_frameworkOver_iff]
  exact ⟨fun ⟨himports, hannotations, hframework⟩ => ⟨himports, hannotations, hframework⟩,
    fun h => ⟨h.imports, h.annotations, h.framework⟩⟩

namespace Resolves

variable {config config' middle defaults : Config} {values : Object} {layers : List Object}

theorem unique (h : Resolves config defaults layers) (h' : Resolves config' defaults layers) :
    config = config' :=
  Config.ext (h.packageName.unique determines_unchanged h'.packageName)
    (h.className.unique determines_unchanged h'.className)
    (h.baseTestClass.unique determines_baseClass h'.baseTestClass)
    (h.imports.unique determines_elements h'.imports)
    (h.annotations.unique determines_elements h'.annotations)
    (h.framework.unique determines_frameworkOf h'.framework)

theorem nil (defaults : Config) : Resolves defaults defaults [] :=
  ⟨rfl, rfl, rfl, rfl, rfl, rfl⟩

/-- One more layer over those that a configuration is resolved from. -/
theorem cons (h : Resolves middle defaults layers) (hlayer : middle.layer values = .ok config) :
    Resolves config defaults (values :: layers) := by
  rw [Config.layer] at hlayer
  obtain ⟨imports, himports, hlayer⟩ := bind_eq_ok_iff.mp hlayer
  obtain ⟨annotations, hannotations, hlayer⟩ := bind_eq_ok_iff.mp hlayer
  obtain ⟨framework, hframework, hlayer⟩ := bind_eq_ok_iff.mp hlayer
  obtain rfl := Except.ok.inj hlayer
  constructor
  · rw [findSome?_cons_eq_or]
    exact h.packageName.or (takes_unchanged_getD _ _)
  · rw [findSome?_cons_eq_or]
    exact h.className.or (takes_unchanged_getD _ _)
  · rw [findSome?_cons_eq_or]
    refine h.baseTestClass.or ?_
    dsimp only
    cases values.given? "baseTestClass" <;> rfl
  · rw [findSome?_cons_eq_or]
    exact h.imports.or (listOver_eq_ok_iff.mp himports)
  · rw [findSome?_cons_eq_or]
    exact h.annotations.or (listOver_eq_ok_iff.mp hannotations)
  · rw [findSome?_cons_eq_or]
    exact h.framework.or (frameworkOver_eq_ok_iff.mp hframework)

end Resolves

/-- The configuration that layers make of the defaults, the topmost layer being the first. -/
def stack (defaults : Config) (layers : List Object) : Except Failure Config :=
  layers.foldrM (fun values below => below.layer values) defaults

section Stack

variable {config defaults : Config} {layers : List Object}

theorem stack_cons (defaults : Config) (values : Object) (layers : List Object) :
    stack defaults (values :: layers) =
      stack defaults layers >>= fun below => below.layer values := by
  rw [stack, List.foldrM_cons, stack]

theorem resolves_of_stack (h : stack defaults layers = .ok config) :
    Resolves config defaults layers := by
  induction layers generalizing config with
  | nil => exact Except.ok.inj h ▸ .nil defaults
  | cons values layers ih =>
    rw [stack_cons] at h
    obtain ⟨below, hbelow, hlayer⟩ := bind_eq_ok_iff.mp h
    exact (ih hbelow).cons hlayer

theorem exists_stack_iff :
    (∃ config, stack defaults layers = .ok config) ↔ ∀ layer ∈ layers, IsReadable layer := by
  induction layers with
  | nil => exact iff_of_true ⟨defaults, rfl⟩ nofun
  | cons values layers ih =>
    rw [List.forall_mem_cons, ← ih]
    simp only [stack_cons, bind_eq_ok_iff]
    constructor
    · rintro ⟨config, below, hbelow, hlayer⟩
      exact ⟨exists_layer_iff_isReadable.mp ⟨config, hlayer⟩, below, hbelow⟩
    · rintro ⟨hreadable, below, hbelow⟩
      obtain ⟨config, hlayer⟩ : ∃ config, below.layer values = .ok config :=
        exists_layer_iff_isReadable.mpr hreadable
      exact ⟨config, below, hbelow, hlayer⟩

theorem stack_eq_ok_iff : stack defaults layers = .ok config ↔
    (∀ layer ∈ layers, IsReadable layer) ∧ Resolves config defaults layers := by
  constructor
  · exact fun h => ⟨exists_stack_iff.mp ⟨config, h⟩, resolves_of_stack h⟩
  · rintro ⟨hreadable, hresolves⟩
    obtain ⟨config', h⟩ : ∃ config, stack defaults layers = .ok config :=
      exists_stack_iff.mpr hreadable
    rw [h, (resolves_of_stack h).unique hresolves]

example : stack default
    [ [("baseTestClass", .str ""), ("imports", .arr []), ("framework", .str "")],
      [ ("baseTestClass", .str "Base"), ("imports", .arr [.str "a"]),
        ("framework", .str "junit") ] ] = .ok { default with framework := .junit } :=
  rfl

end Stack

end Config

namespace Session

variable [Machine] {s : Session} {files : FileTree} {overrides stored : Object}
  {config : Config}

theorem currentConfig_eq (s : Session) (files : FileTree) (overrides : Object) :
    s.currentConfig files overrides =
      s.store.snapshot files >>= fun stored => Config.stack s.defaults [overrides, stored] := by
  simp only [currentConfig, Config.stack, List.foldrM_cons, List.foldrM_nil, pure_bind]

theorem resolves_of_currentConfig (h : s.currentConfig files overrides = .ok config) :
    ∃ stored, s.store.snapshot files = .ok stored ∧
      Config.Resolves config s.defaults [overrides, stored] := by
  rw [currentConfig_eq] at h
  obtain ⟨stored, hstored, hstack⟩ := bind_eq_ok_iff.mp h
  exact ⟨stored, hstored, Config.resolves_of_stack hstack⟩

/-- **Settings are resolved one by one.** The configuration under some overrides takes each setting
from the overrides if they have it, else from what is stored, else from the defaults. Null is no
value, nor is for the framework what does not count as given; a base class that does not count as
given is none, whatever stands below it, and lists are replaced. There is such a configuration if
and only if the store can be read and both layers are readable. -/
theorem currentConfig_eq_ok_iff : s.currentConfig files overrides = .ok config ↔
    ∃ stored, s.store.snapshot files = .ok stored ∧
      (∀ layer ∈ [overrides, stored], Config.IsReadable layer) ∧
      Config.Resolves config s.defaults [overrides, stored] := by
  rw [currentConfig_eq, bind_eq_ok_iff]
  simp only [Config.stack_eq_ok_iff]

end Session

end StepGlue
