import StepGlue.Proofs.Session.Laws

/-!
# What is stored as settings

Commands store settings under their own names, a framework by its tag, and lists as lists of texts.
A section of such settings can be read over any defaults.
-/

namespace StepGlue

open Json (Object)

/-! ### Names of a configuration -/

namespace Config

/-- Whether the package, the class and the base class of a configuration, if it has one, all have
some property. -/
structure AllNames (P : Json → Prop) (config : Config) : Prop where
  packageName : P config.packageName
  className : P config.className
  baseTestClass : ∀ base, config.baseTestClass = some base → P base

variable {P : Json → Prop} {config defaults : Config} {stored : Object} {given : Option Json}

theorem AllNames.mono {Q : Json → Prop} (h : config.AllNames P) (hPQ : ∀ v, P v → Q v) :
    config.AllNames Q where
  packageName := hPQ _ h.packageName
  className := hPQ _ h.className
  baseTestClass := fun base hbase => hPQ base (h.baseTestClass base hbase)

theorem Takes.of_unchanged {below value : Json} (h : Takes Unchanged given below value)
    (hbelow : P below) (hgiven : ∀ v, given = some v → P v) : P value := by
  cases given with
  | none => exact (show value = below from h) ▸ hbelow
  | some v => exact (show value = v from h) ▸ hgiven v rfl

theorem Takes.of_baseClass {below value : Option Json} (h : Takes BaseClass given below value)
    (hbelow : ∀ base, below = some base → P base) (hgiven : ∀ v, given = some v → P v) :
    ∀ base, value = some base → P base := by
  cases given with
  | none => exact (show value = below from h) ▸ hbelow
  | some v =>
    intro base hbase
    obtain rfl : value = if v.isGiven then some v else none := h
    split at hbase
    · exact Option.some.inj hbase ▸ hgiven v rfl
    · cases hbase

/-- The names of a configuration are those of the defaults, or they are stored. -/
theorem Resolves.allNames [Machine] (h : Resolves config defaults [[], stored])
    (hdefaults : defaults.AllNames P) (hstored : ∀ setting ∈ stored, P setting.2) :
    config.AllNames P := by
  have hgiven : ∀ name v, [[], stored].findSome? (Object.given? · name) = some v → P v := by
    intro name v hv
    rw [findSome?_stored rfl] at hv
    exact hstored _ (PairList.mem_of_get?_eq_some (Session.get?_eq_of_given? hv).1)
  exact ⟨h.packageName.of_unchanged hdefaults.packageName (hgiven _),
    h.className.of_unchanged hdefaults.className (hgiven _),
    h.baseTestClass.of_baseClass hdefaults.baseTestClass (hgiven _)⟩

end Config

/-! ### Settings -/

namespace Session

def names : List String :=
  ["packageName", "className", "baseTestClass"]

/-- Whether a member of a section is a setting in the form in which it is stored. -/
structure IsSetting (name : String) (v : Json) : Prop where
  mem_settingNames : name ∈ settingNames
  framework : name = "framework" → ∃ framework : Framework, v = .str framework.tag
  texts : name = "imports" ∨ name = "annotations" → ∃ texts : List String, v = .arr (texts.map .str)

/-- Whether all members of a section are settings. -/
def AreSettings (stored : Object) : Prop :=
  ∀ setting ∈ stored, IsSetting setting.1 setting.2

variable {stored values changes : Object}

theorem AreSettings.update (hstored : AreSettings stored) (hvalues : AreSettings values) :
    AreSettings (stored.update values) :=
  PairList.forall_mem_update hstored hvalues

theorem areSettings_of_names (hnames : ∀ setting ∈ values, setting.1 ∈ names) :
    AreSettings values := by
  intro setting hmem
  have hname := hnames setting hmem
  simp only [names, List.mem_cons, List.not_mem_nil, or_false] at hname
  constructor
  · simp only [settingNames, List.mem_cons]
    tauto
  · intro hframework
    simp [hframework] at hname
  · rintro (hlist | hlist) <;> simp [hlist] at hname

variable [Machine]

/-- What an update stores are settings. -/
theorem areSettings_of_changes (h : Session.changes values = .ok changes) :
    AreSettings changes := by
  rintro ⟨name, w⟩ hmem
  obtain ⟨hname, v, hgiven, hform⟩ := exists_given?_of_mem_changes h hmem
  rw [storedForm] at hform
  refine ⟨hname, ?_, fun hlist => ?_⟩
  · rintro rfl
    rw [if_neg (by decide)] at hform
    obtain ⟨-, rfl⟩ := Prod.mk.inj (Except.ok.inj hform)
    obtain ⟨framework, hframework⟩ := exists_framework_of_changes h hgiven
    exact ⟨framework, Framework.ofJson_eq_ok_iff.mp hframework⟩
  · rw [if_pos (by simpa using hlist)] at hform
    obtain ⟨elements, -, hform⟩ := bind_eq_ok_iff.mp hform
    obtain ⟨texts, -, hform⟩ := bind_eq_ok_iff.mp hform
    obtain ⟨-, rfl⟩ := Prod.mk.inj (Except.ok.inj hform)
    exact ⟨texts, rfl⟩

/-- Settings can be read. -/
theorem AreSettings.isReadable (h : AreSettings stored) : Config.IsReadable stored := by
  have hlist : ∀ name, name = "imports" ∨ name = "annotations" → ∀ v,
      stored.given? name = some v → ∃ items, Config.Elements v items := by
    intro name hname v hgiven
    have hmem := PairList.mem_of_get?_eq_some (get?_eq_of_given? hgiven).1
    obtain ⟨texts, rfl⟩ : ∃ texts : List String, v = .arr (texts.map .str) :=
      (h _ hmem).texts hname
    exact ⟨_, rfl⟩
  refine ⟨hlist _ (.inl rfl), hlist _ (.inr rfl), fun v hget _ => ?_⟩
  obtain ⟨framework, rfl⟩ : ∃ framework : Framework, v = .str framework.tag :=
    (h _ (PairList.mem_of_get?_eq_some hget)).framework rfl
  exact ⟨framework, Config.frameworkOf_of_ofJson (Framework.ofJson_eq_ok_iff.mpr rfl)⟩

theorem exists_currentConfig_iff_isReadable {s : Session} {files : FileTree} {stored : Object}
    (hsnapshot : s.store.snapshot files = .ok stored) :
    (∃ config, s.currentConfig files [] = .ok config) ↔ Config.IsReadable stored :=
  (exists_currentConfig_iff hsnapshot).trans Config.exists_layer_iff_isReadable

/-- There is a configuration of stored settings if and only if these can be copied. -/
theorem AreSettings.exists_currentConfig_iff {s : Session} {files : FileTree} {document : Object}
    (h : AreSettings (s.store.sectionOf document)) (hdocument : s.store.Contains files document) :
    (∃ config, s.currentConfig files [] = .ok config) ↔
      Within (Machine.limit Nesting.copied) (Json.obj (s.store.sectionOf document)).height := by
  constructor
  · rintro ⟨config, hconfig⟩
    obtain ⟨stored, hstored, -⟩ := bind_eq_ok_iff.mp hconfig
    exact (hdocument.snapshot_eq_ok_iff.mp hstored).1
  · intro hlow
    exact (exists_currentConfig_iff_isReadable
      (hdocument.snapshot_eq_ok_iff.mpr ⟨hlow, rfl⟩)).mpr h.isReadable

end Session

end StepGlue
