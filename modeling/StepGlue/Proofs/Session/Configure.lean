import StepGlue.Proofs.Session.Commands
import StepGlue.Proofs.Session.Stored

/-!
# Configuring

An answered `configure` stores three names, which are those of the configuration or texts of the
host. A store in memory takes them, so only a file can stand in the way, or an answer that cannot be
shown.
-/

namespace StepGlue

open Json (Object)

/-! ### The names that are stored -/

namespace Host

variable [Machine] {h : Host} {key : String} {v value : Json}

/-- Whether the answer to a question is null. -/
def Cancels (h : Host) (key : String) : Prop :=
  h.answers.get? key = some .null

/-- Whether a question is answered, or has no answer, such that `configure` goes on. -/
def GoesOn (h : Host) (key : String) : Prop :=
  ¬h.Cancels key ∧ ∃ answer, h.prompt key none = .ok answer

/-- Whether `configure` gets to a question. -/
inductive Asks (h : Host) : String → Prop
  | packageName : Asks h "packageName"
  | className (hpackage : h.GoesOn "packageName") : Asks h "className"
  | baseTestClass (hpackage : h.GoesOn "packageName") (hclass : h.GoesOn "className") :
      Asks h "baseTestClass"

/-- Whether an answer that `configure` asks for cannot be taken. -/
def AsksInVain (h : Host) (e : Failure) : Prop :=
  ∃ key, h.Asks key ∧ h.prompt key none = .error e

/-- Whether a question that can cancel `configure` is reached and answered with null. -/
def CancelsConfigure (h : Host) : Prop :=
  h.Cancels "packageName" ∨ h.GoesOn "packageName" ∧ h.Cancels "className"

theorem answerTo_eq_error_iff {e : Failure} :
    h.answerTo key value = .error e ↔ h.prompt key none = .error e := by
  rw [answerTo]
  cases hanswer : h.answers.get? key with
  | none => simp [prompt, hanswer]
  | some _ => exact map_eq_error_iff

theorem answerTo_eq_none_iff : h.answerTo key value = .ok none ↔ h.Cancels key := by
  rw [answerTo, Cancels, prompt]
  cases h.answers.get? key with
  | none => simp
  | some answer =>
    cases answer with
    | null => simp [Except.map]
    | _ => simp [map_eq_ok_iff]

theorem exists_answerTo_eq_some_iff :
    (∃ name, h.answerTo key value = .ok (some name)) ↔ h.GoesOn key := by
  have hcancels : h.answerTo key value = .ok none ↔ h.Cancels key := answerTo_eq_none_iff
  rw [GoesOn, ← hcancels]
  cases hanswer : h.answerTo key value with
  | error e => simp [answerTo_eq_error_iff.mp hanswer]
  | ok answer =>
    have htaken : ∃ answer, h.prompt key none = .ok answer := by
      cases hprompt : h.prompt key none with
      | error e => cases (answerTo_eq_error_iff.mpr hprompt).symm.trans hanswer
      | ok answer => exact ⟨answer, rfl⟩
    cases answer <;> simp [htaken]

theorem answerTo_eq_some (hanswer : h.answerTo key value = .ok (some v)) :
    v = value ∨ ∃ text, v = .str text := by
  rw [answerTo] at hanswer
  split at hanswer
  · exact .inl (Option.some.inj (Except.ok.inj hanswer)).symm
  · obtain ⟨answer, -, hanswer⟩ := map_eq_ok_iff.mp hanswer
    obtain ⟨text, -, rfl⟩ := Option.map_eq_some_iff.mp hanswer
    exact .inr ⟨text, rfl⟩

variable {config : Config} {values : Object}

/-- What `configure` stores is made of three answers. -/
theorem configured_eq_some_iff : h.configured config = .ok (some values) ↔
    ∃ packageName className baseTestClass,
      h.answerTo "packageName" config.packageName = .ok (some packageName) ∧
      h.answerTo "className" config.className = .ok (some className) ∧
      h.answerTo "baseTestClass" (config.baseTestClass.getD (.str "")) = .ok baseTestClass ∧
      values = [ ("packageName", packageName), ("className", className),
        ("baseTestClass", baseTestClass.getD (.str "")) ] := by
  constructor
  · intro hvalues
    obtain ⟨_ | packageName, hpackage, hvalues⟩ := bind_eq_ok_iff.mp hvalues
    · cases hvalues
    · obtain ⟨_ | className, hclass, hvalues⟩ := bind_eq_ok_iff.mp hvalues
      · cases hvalues
      · obtain ⟨baseTestClass, hbase, hvalues⟩ := bind_eq_ok_iff.mp hvalues
        exact ⟨packageName, className, baseTestClass, hpackage, hclass, hbase,
          (Option.some.inj (Except.ok.inj hvalues)).symm⟩
  · rintro ⟨packageName, className, baseTestClass, hpackage, hclass, hbase, rfl⟩
    exact bind_eq_ok_iff.mpr ⟨_, hpackage, bind_eq_ok_iff.mpr ⟨_, hclass, bind_eq_ok_iff.mpr
      ⟨_, hbase, rfl⟩⟩⟩

/-- Nothing is to be stored exactly if a question cancels. -/
theorem configured_eq_none_iff : h.configured config = .ok none ↔ h.CancelsConfigure := by
  constructor
  · intro hnone
    obtain ⟨_ | packageName, hpackage, hnone⟩ := bind_eq_ok_iff.mp hnone
    · exact .inl (answerTo_eq_none_iff.mp hpackage)
    · refine .inr ⟨exists_answerTo_eq_some_iff.mp ⟨_, hpackage⟩, ?_⟩
      obtain ⟨_ | className, hclass, hnone⟩ := bind_eq_ok_iff.mp hnone
      · exact answerTo_eq_none_iff.mp hclass
      · obtain ⟨_, -, hnone⟩ := bind_eq_ok_iff.mp hnone
        cases hnone
  · rintro (hpackage | ⟨hpackage, hclass⟩)
    · exact bind_eq_ok_iff.mpr ⟨none, answerTo_eq_none_iff.mpr hpackage, rfl⟩
    · obtain ⟨packageName, hpackage⟩ := exists_answerTo_eq_some_iff.mpr hpackage
      exact bind_eq_ok_iff.mpr ⟨_, hpackage, bind_eq_ok_iff.mpr
        ⟨none, answerTo_eq_none_iff.mpr hclass, rfl⟩⟩

variable (config) in
theorem configured_eq_error_iff {e : Failure} :
    h.configured config = .error e ↔ h.AsksInVain e := by
  constructor
  · intro hfails
    rcases bind_eq_error_iff.mp hfails with hpackage | ⟨_ | packageName, hpackage, hfails⟩
    · exact ⟨_, .packageName, answerTo_eq_error_iff.mp hpackage⟩
    · cases hfails
    · have hpackage := exists_answerTo_eq_some_iff.mp ⟨_, hpackage⟩
      rcases bind_eq_error_iff.mp hfails with hclass | ⟨_ | className, hclass, hfails⟩
      · exact ⟨_, .className hpackage, answerTo_eq_error_iff.mp hclass⟩
      · cases hfails
      · have hclass := exists_answerTo_eq_some_iff.mp ⟨_, hclass⟩
        rcases bind_eq_error_iff.mp hfails with hbase | ⟨_, -, hfails⟩
        · exact ⟨_, .baseTestClass hpackage hclass, answerTo_eq_error_iff.mp hbase⟩
        · cases hfails
  · rintro ⟨key, hasks, hprompt⟩
    have hanswer : ∀ value, h.answerTo key value = .error e :=
      fun _ => answerTo_eq_error_iff.mpr hprompt
    cases hasks with
    | packageName => exact bind_eq_error_iff.mpr (.inl (hanswer _))
    | className hpackage =>
      obtain ⟨packageName, hpackage⟩ := exists_answerTo_eq_some_iff.mpr hpackage
      exact bind_eq_error_iff.mpr (.inr ⟨_, hpackage, bind_eq_error_iff.mpr (.inl (hanswer _))⟩)
    | baseTestClass hpackage hclass =>
      obtain ⟨packageName, hpackage⟩ := exists_answerTo_eq_some_iff.mpr hpackage
      obtain ⟨className, hclass⟩ := exists_answerTo_eq_some_iff.mpr hclass
      exact bind_eq_error_iff.mpr (.inr ⟨_, hpackage, bind_eq_error_iff.mpr (.inr ⟨_, hclass,
        bind_eq_error_iff.mpr (.inl (hanswer _))⟩)⟩)

theorem keys_configured (hvalues : h.configured config = .ok (some values)) :
    PairList.keys values = Session.names := by
  obtain ⟨_, _, _, -, -, -, rfl⟩ := configured_eq_some_iff.mp hvalues
  rfl

/-- What `configure` stores are names of the configuration and texts. -/
theorem forall_mem_configured {P : Json → Prop} (htext : ∀ text, P (.str text))
    (hconfig : config.AllNames P) (hvalues : h.configured config = .ok (some values)) :
    ∀ setting ∈ values, P setting.2 := by
  have hanswer : ∀ {key value v}, P value → h.answerTo key value = .ok (some v) → P v := by
    intro key value v hvalue hsome
    rcases answerTo_eq_some hsome with rfl | ⟨text, rfl⟩
    · exact hvalue
    · exact htext text
  have hgetD : ∀ base : Option Json, (∀ v, base = some v → P v) → P (base.getD (.str "")) := by
    intro base hbase
    cases base with
    | none => exact htext ""
    | some v => exact hbase v rfl
  obtain ⟨packageName, className, baseTestClass, hpackage, hclass, hbase, rfl⟩ :=
    configured_eq_some_iff.mp hvalues
  refine List.forall_mem_cons.mpr ⟨hanswer hconfig.packageName hpackage,
    List.forall_mem_cons.mpr ⟨hanswer hconfig.className hclass, List.forall_mem_singleton.mpr ?_⟩⟩
  refine hgetD _ fun v hv => hanswer (hgetD _ hconfig.baseTestClass) (hbase.trans ?_)
  rw [hv]

end Host

/-! ### In memory -/

variable [Machine]

section Names

variable {stored values : Object} (hkeys : PairList.keys values = Session.names) {name : String}
  (hname : name ∉ Session.names)
include hkeys

omit [Machine] in
include hname in
theorem Session.get?_update_of_names : (stored.update values).get? name = stored.get? name := by
  have hnone : PairList.get? values name = none := PairList.get?_eq_none_iff.mpr (hkeys ▸ hname)
  have hnodup : (PairList.keys values).Nodup := by
    rw [hkeys]
    decide
  exact (PairList.get?_update hnodup stored name).trans (by rw [hnone, Option.none_or]; rfl)

omit [Machine] in
include hname in
theorem Session.given?_update_of_names :
    (stored.update values).given? name = stored.given? name := by
  rw [Object.given?, Session.get?_update_of_names hkeys hname, Object.given?]

/-- Names that are set leave the lists and the framework of a section as they are. -/
theorem Config.IsReadable.update_names (h : Config.IsReadable stored) :
    Config.IsReadable (stored.update values) := by
  constructor
  · rw [Session.given?_update_of_names hkeys (by decide)]
    exact h.imports
  · rw [Session.given?_update_of_names hkeys (by decide)]
    exact h.annotations
  · rw [Session.get?_update_of_names hkeys (by decide)]
    exact h.framework

end Names

section InMemory

/-- Whether a value can be copied as a member of a section. -/
def Json.IsCopied (v : Json) : Prop :=
  Within (Machine.limit Nesting.copied) (v.height + 1)

instance (v : Json) : Decidable v.IsCopied :=
  inferInstanceAs (Decidable (Within _ _))

variable {desk : Desk} {config : Config} (hpath : desk.session.store.path = none)
  (hconfig : desk.config = .ok config)
include hpath hconfig

theorem Desk.exists_stored_inMemory :
    Within (Machine.limit Nesting.copied) (Json.obj desk.session.store.memory).height ∧
      Config.IsReadable desk.session.store.memory ∧
      config.Resolves desk.session.defaults [[], desk.session.store.memory] := by
  obtain ⟨stored, hstored, hresolves⟩ := Session.resolves_of_currentConfig hconfig
  obtain ⟨hlow, rfl⟩ := Store.copy_eq_ok_iff.mp
    ((Store.snapshot_inMemory hpath desk.files).symm.trans hstored)
  have hreadable := (Session.exists_currentConfig_iff_isReadable hstored).mp ⟨config, hconfig⟩
  exact ⟨hlow, hreadable, hresolves⟩

variable (hdefaults : desk.session.defaults.AllNames Json.IsCopied)
include hdefaults

/-- The names that `configure` stores are no higher than what was stored, or given by default. -/
theorem Desk.within_update_configured {values : Object}
    (hvalues : desk.host.configured config = .ok (some values)) :
    Within (Machine.limit Nesting.copied)
      (Json.obj (desk.session.store.memory.update values)).height := by
  obtain ⟨hlow, -, hresolves⟩ := Desk.exists_stored_inMemory hpath hconfig
  obtain ⟨hone, hstored⟩ := Json.within_obj_iff.mp hlow
  have hnames : config.AllNames Json.IsCopied := hresolves.allNames hdefaults hstored
  have hgiven := Host.forall_mem_configured (fun _ => Machine.within_copied_two) hnames hvalues
  exact Json.within_obj_iff.mpr ⟨hone, PairList.forall_mem_update hstored hgiven⟩

/-- A store in memory takes what `configure` gives it, unless a name by default is too high. -/
theorem Command.configure_eq_error_iff_inMemory {e : Failure} :
    (configure.runOn desk).1 = .error e ↔ desk.host.AsksInVain e := by
  rw [← Host.configured_eq_error_iff config]
  rcases hvalues : desk.host.configured config with e' | (_ | values)
  · rw [runOn_configure_of_answers hconfig hvalues]
    simp
  · rw [runOn_configure_of_none hconfig hvalues]
    simp
  · have hcopy := Store.copy_of_within
      (Desk.within_update_configured hpath hconfig hdefaults hvalues)
    have hupdate := Store.update_inMemory hpath desk.files desk.now values
    rw [Store.setInMemory, hcopy] at hupdate
    obtain ⟨_, -, hrun⟩ := exists_runOn_configure hconfig hvalues hupdate
    have hsnapshot := (Store.snapshot_inMemory (m := { desk.session.store with
      memory := desk.session.store.memory.update values }) hpath desk.files).trans hcopy
    have hreadable := (Desk.exists_stored_inMemory hpath hconfig).2.1.update_names
      (Host.keys_configured hvalues)
    obtain ⟨config', hconfig'⟩ := (Session.exists_currentConfig_iff_isReadable
      (s := { desk.session with store := _ }) hsnapshot).mpr hreadable
    have hconfig' : (desk.withStore { desk.session.store with
        memory := desk.session.store.memory.update values } desk.files).config = .ok config' :=
      hconfig'
    rw [hrun]
    simp [Except.bind, hconfig', Except.map]

end InMemory

end StepGlue
