import StepGlue.Proofs.Session.Rejection

/-!
# What answers make of a configuration

Configuring asks for three names, and a question that is not answered keeps the name that is in
force. The names are stored all three, also those that came from the defaults, and read back they
give the configuration that the answers spell.
-/

namespace StepGlue

open Json (Object)

/-! ### Names that are stored -/

namespace Config

/-- The names of a configuration in the form in which they are stored. -/
def storedNames (config : Config) : Object :=
  [ ("packageName", config.packageName), ("className", config.className),
    ("baseTestClass", config.baseTestClass.getD (.str "")) ]

/-- Whether a base class, if there is one, counts as given. -/
def BaseIsGiven (config : Config) : Prop :=
  ∀ base, config.baseTestClass = some base → base.isGiven

theorem keys_storedNames (config : Config) : PairList.keys config.storedNames = Session.names :=
  rfl

theorem get?_update_storedNames (stored : Object) (config : Config) {name : String} {value : Json}
    (h : config.storedNames.get? name = some value) :
    (stored.update config.storedNames).get? name = some value := by
  have hnodup : (PairList.keys config.storedNames).Nodup := by
    rw [keys_storedNames]
    decide
  exact (PairList.get?_update hnodup stored name).trans
    (congrArg (·.or (PairList.get? stored name)) h)

section Takes

variable {stored : Object} {name : String} {given : Option Json}

theorem Takes.eq_null_of_eq_null {below value : Json}
    (h : Takes Unchanged (stored.given? name) below value) (hnull : value = .null) :
    below = .null := by
  cases hgiven : stored.given? name with
  | none =>
    rw [hgiven] at h
    exact (show value = below from h) ▸ hnull
  | some v =>
    rw [hgiven] at h
    obtain rfl : value = v := h
    exact absurd hnull (Session.get?_eq_of_given? hgiven).2

theorem Takes.isGiven_of_baseClass {below value : Option Json}
    (h : Takes BaseClass given below value) (hbelow : ∀ base, below = some base → base.isGiven) :
    ∀ base, value = some base → base.isGiven := by
  cases given with
  | none => exact (show value = below from h) ▸ hbelow
  | some v =>
    obtain rfl : value = if v.isGiven then some v else none := h
    intro base hbase
    split at hbase
    · rename_i hv
      exact Option.some.inj hbase ▸ hv
    · cases hbase

/-- A name that is stored is taken from then on; null counts as not stored. -/
theorem takes_of_stored {below value : Json} (hnull : value = .null → below = .null)
    (hstored : stored.get? name = some value) :
    Takes Unchanged (stored.given? name) below value := by
  by_cases hvalue : value = .null
  · rw [Object.given?, hstored, hvalue]
    exact (hnull hvalue).symm
  · rw [Session.given?_eq_of_get? hstored hvalue]
    rfl

theorem takes_of_storedBase {below base : Option Json}
    (hbase : ∀ v, base = some v → v.isGiven)
    (hstored : stored.get? name = some (base.getD (.str ""))) :
    Takes BaseClass (stored.given? name) below base := by
  cases base with
  | none =>
    rw [Session.given?_eq_of_get? hstored (by simp)]
    rfl
  | some v =>
    have hgiven := hbase v rfl
    rw [Session.given?_eq_of_get? hstored (by rintro ⟨⟩; cases hgiven)]
    exact (if_pos hgiven).symm

end Takes

theorem Resolves.baseIsGiven [Machine] {config defaults : Config} {layers : List Object}
    (h : config.Resolves defaults layers) (hdefaults : defaults.BaseIsGiven) :
    config.BaseIsGiven :=
  h.baseTestClass.isGiven_of_baseClass hdefaults

end Config

variable [Machine]

/-! ### Answers -/

namespace Host

variable {h : Host} {key : String}

/-- The name that an answer gives in place of another one. -/
def nameAnswered (h : Host) (key : String) (name : Json) : Except Failure Json :=
  match h.answers.get? key with
  | none => .ok name
  | some answer => answer.display.map .str

/-- The base class that an answer gives in place of another one; an empty answer gives none. -/
def baseAnswered (h : Host) (base : Option Json) : Except Failure (Option Json) :=
  match h.answers.get? "baseTestClass" with
  | none => .ok base
  | some .null => .ok none
  | some answer => answer.display.map fun text => if text = "" then none else some (.str text)

/-- A configuration with the names that a host answers. -/
def answered (h : Host) (config : Config) : Except Failure Config := do
  return { config with
    packageName := ← h.nameAnswered "packageName" config.packageName
    className := ← h.nameAnswered "className" config.className
    baseTestClass := ← h.baseAnswered config.baseTestClass }

theorem nameAnswered_of_answerTo {name value : Json}
    (hanswer : h.answerTo key name = .ok (some value)) : h.nameAnswered key name = .ok value := by
  rw [answerTo] at hanswer
  rw [nameAnswered]
  cases hgiven : h.answers.get? key with
  | none =>
    rw [hgiven] at hanswer
    rw [Option.some.inj (Except.ok.inj hanswer)]
  | some answer =>
    obtain ⟨text, hprompt, htext⟩ := map_eq_ok_iff.mp (by simpa [hgiven] using hanswer)
    obtain ⟨text, rfl, rfl⟩ := Option.map_eq_some_iff.mp htext
    rw [prompt, hgiven] at hprompt
    cases answer with
    | null => cases hprompt
    | _ =>
      obtain ⟨_, hshown, hsome⟩ := map_eq_ok_iff.mp hprompt
      obtain rfl := Option.some.inj hsome
      exact map_eq_ok_iff.mpr ⟨_, hshown, rfl⟩

theorem exists_baseAnswered_of_answerTo {base answer : Option Json}
    (hanswer : h.answerTo "baseTestClass" (base.getD (.str "")) = .ok answer) :
    ∃ named, h.baseAnswered base = .ok named ∧ answer.getD (.str "") = named.getD (.str "") := by
  have htext (text : String) : Json.str text =
      (if text = "" then none else some (Json.str text)).getD (.str "") := by
    by_cases hempty : text = "" <;> simp [hempty]
  rw [answerTo] at hanswer
  rw [baseAnswered]
  cases hgiven : h.answers.get? "baseTestClass" with
  | none =>
    rw [hgiven] at hanswer
    obtain rfl := Except.ok.inj hanswer
    exact ⟨base, rfl, rfl⟩
  | some given =>
    obtain ⟨text, hprompt, rfl⟩ := map_eq_ok_iff.mp (by simpa [hgiven] using hanswer)
    rw [prompt, hgiven] at hprompt
    cases given with
    | null =>
      obtain rfl := Except.ok.inj hprompt
      exact ⟨none, rfl, rfl⟩
    | _ =>
      obtain ⟨shown, hshown, rfl⟩ := map_eq_ok_iff.mp hprompt
      exact ⟨_, map_eq_ok_iff.mpr ⟨shown, hshown, rfl⟩, htext shown⟩

/-- Without answers a configuration stays as it is. -/
theorem answered_eq_self (hanswers : ∀ key ∈ Session.names, h.answers.get? key = none)
    (config : Config) : h.answered config = .ok config := by
  rw [answered, nameAnswered, nameAnswered, baseAnswered, hanswers "packageName" (by decide),
    hanswers "className" (by decide), hanswers "baseTestClass" (by decide)]
  rfl

variable {config named : Config} {values : Object}

theorem answered_eq_ok_iff : h.answered config = .ok named ↔
    ∃ packageName className baseTestClass,
      h.nameAnswered "packageName" config.packageName = .ok packageName ∧
      h.nameAnswered "className" config.className = .ok className ∧
      h.baseAnswered config.baseTestClass = .ok baseTestClass ∧
      named = { config with packageName, className, baseTestClass } := by
  simp only [answered, bind_eq_ok_iff, pure, Except.pure, Except.ok.injEq, exists_and_left,
    eq_comm (b := named)]

/-- What `configure` stores are the names that the answers spell. -/
theorem exists_answered_of_configured (hvalues : h.configured config = .ok (some values)) :
    ∃ named, h.answered config = .ok named ∧ values = named.storedNames := by
  obtain ⟨packageName, className, answer, hpackage, hclass, hbase, rfl⟩ :=
    configured_eq_some_iff.mp hvalues
  obtain ⟨baseTestClass, hbase, hstored⟩ := exists_baseAnswered_of_answerTo hbase
  refine ⟨{ config with packageName, className, baseTestClass }, answered_eq_ok_iff.mpr
    ⟨_, _, _, nameAnswered_of_answerTo hpackage, nameAnswered_of_answerTo hclass, hbase, rfl⟩, ?_⟩
  rw [hstored, Config.storedNames]

theorem eq_null_of_nameAnswered {name : Json} (hnull : h.nameAnswered key name = .ok .null) :
    name = .null := by
  rw [nameAnswered] at hnull
  split at hnull
  · exact Except.ok.inj hnull
  · obtain ⟨_, -, hnull⟩ := map_eq_ok_iff.mp hnull
    cases hnull

theorem baseIsGiven_answered (hnamed : h.answered config = .ok named)
    (hconfig : config.BaseIsGiven) : named.BaseIsGiven := by
  obtain ⟨_, _, baseTestClass, -, -, hbase, rfl⟩ := answered_eq_ok_iff.mp hnamed
  rw [Config.BaseIsGiven]
  rw [baseAnswered] at hbase
  split at hbase
  · exact Except.ok.inj hbase ▸ hconfig
  · obtain rfl := Except.ok.inj hbase
    exact nofun
  · obtain ⟨text, -, rfl⟩ := map_eq_ok_iff.mp hbase
    dsimp only
    split
    · exact nofun
    · rename_i hempty
      rintro base ⟨⟩
      simpa [Json.isGiven] using hempty

/-- Over a section with the names that were answered stands the configuration with these names. -/
theorem resolves_answered {defaults : Config} {stored : Object}
    (hnamed : h.answered config = .ok named) (hresolves : config.Resolves defaults [[], stored])
    (hdefaults : defaults.BaseIsGiven) :
    named.Resolves defaults [[], stored.update named.storedNames] := by
  have hkeys := Config.keys_storedNames named
  have hbase := baseIsGiven_answered hnamed (hresolves.baseIsGiven hdefaults)
  obtain ⟨_, _, _, hpackageAnswered, hclassAnswered, -, rfl⟩ := answered_eq_ok_iff.mp hnamed
  obtain ⟨hpackage, hclass, -, himports, hannotations, hframework⟩ := hresolves
  rw [Config.findSome?_stored rfl] at hpackage hclass himports hannotations hframework
  constructor
  · rw [Config.findSome?_stored rfl]
    exact Config.takes_of_stored
      (fun hnull => hpackage.eq_null_of_eq_null
        (eq_null_of_nameAnswered (hpackageAnswered.trans (congrArg _ hnull))))
      (Config.get?_update_storedNames stored _ rfl)
  · rw [Config.findSome?_stored rfl]
    exact Config.takes_of_stored
      (fun hnull => hclass.eq_null_of_eq_null
        (eq_null_of_nameAnswered (hclassAnswered.trans (congrArg _ hnull))))
      (Config.get?_update_storedNames stored _ rfl)
  · rw [Config.findSome?_stored rfl]
    exact Config.takes_of_storedBase hbase (Config.get?_update_storedNames stored _ rfl)
  · rw [Config.findSome?_stored rfl, Session.given?_update_of_names hkeys (by decide)]
    exact himports
  · rw [Config.findSome?_stored rfl, Session.given?_update_of_names hkeys (by decide)]
    exact hannotations
  · rw [Config.findSome?_stored rfl, Config.frameworkGiven?,
      Session.get?_update_of_names hkeys (by decide)]
    exact hframework

end Host

/-! ### Configuring -/

namespace Command

variable {desk after : Desk} {config : Config} {outcome : ConfigureOutcome} {e : Failure}

section Named

variable {named : Config} (hkeeps : desk.session.KeepsObjects) (hconfig : desk.config = .ok config)
  (hvalues : desk.host.configured config = .ok (some named.storedNames))
include hkeeps hconfig hvalues

/-- An answered `configure` fails with its update, and with nothing else. -/
theorem configure_eq_error_iff_update : (configure.runOn desk).1 = .error e ↔
    (desk.session.store.update desk.files desk.now named.storedNames).1 = .error e := by
  rw [configure_eq_error_iff hkeeps]
  simp [hconfig, Desk.CannotConfigure, ← Host.configured_eq_error_iff config, hvalues]

/-- An answered `configure` that does not fail stores the names of the answered configuration, which
is the configuration from then on. -/
theorem stored_of_configure (hnamed : desk.host.answered config = .ok named)
    (hbase : desk.session.defaults.BaseIsGiven)
    (hrun : configure.runOn desk = (.ok outcome, after)) :
    outcome = { status := .updated, config := named } ∧ after.config = .ok named ∧
      ∃ stored, desk.snapshot = .ok stored ∧
        after.snapshot = .ok (stored.update named.storedNames) := by
  rcases hupdate : desk.session.store.update desk.files desk.now named.storedNames with
    ⟨result, store, files⟩
  obtain ⟨_, ⟨host, -, rfl⟩, hends⟩ := exists_runOn_configure hconfig hvalues hupdate
  rw [hends] at hrun
  obtain ⟨hresult, rfl⟩ := Prod.mk.inj hrun
  cases result with
  | error e => cases hresult
  | ok updated =>
    obtain ⟨hsnapshot, document, hdocument, rfl⟩ := Store.snapshot_of_update hkeeps.holdsSection
      (Desk.wellFormed_configured hkeeps hconfig hvalues) hupdate
    obtain ⟨stored, hstored, hresolves⟩ := Session.resolves_of_currentConfig hconfig
    obtain rfl := Store.sectionOf_eq_of_snapshot hdocument hstored
    -- what is read back is resolved from the same layers as the answered configuration
    obtain ⟨config', hconfig'⟩ := Desk.exists_config_of_update hkeeps hconfig hvalues hupdate
    obtain ⟨stored', hstored', hresolves'⟩ := Session.resolves_of_currentConfig hconfig'
    obtain rfl := Except.ok.inj (hsnapshot.symm.trans hstored')
    obtain rfl : config' = named :=
      hresolves'.unique (Host.resolves_answered hnamed hresolves hbase)
    refine ⟨?_, hconfig', _, hstored, hsnapshot⟩
    rw [hconfig'] at hresult
    exact (Except.ok.inj hresult).symm

end Named

/-- **Configuring by answers.** If there is a configuration, `configure` fails with the first answer
that it asks for and cannot take, and it is cancelled if it gets to a null where it needs a name; in
both cases everything stays as it is. Otherwise it makes one update, with whose failure it fails; if
it does not fail, the names of the configuration are those of the answers, those without an answer
and all other settings are as they were, and that is what is stored and read back. In memory the
update does not fail. -/
theorem configure_goes_by_answers (hkeeps : desk.session.KeepsObjects)
    (hbase : desk.session.defaults.BaseIsGiven) (hconfig : desk.config = .ok config) :
    (∀ e, desk.host.AsksInVain e → configure.runOn desk = (.error e, desk)) ∧
    (desk.host.CancelsConfigure →
      configure.runOn desk = (.ok { status := .cancelled, config }, desk)) ∧
    (¬desk.host.CancelsConfigure → (∀ e, ¬desk.host.AsksInVain e) →
      ∃ named, desk.host.answered config = .ok named ∧
        (∀ e, (configure.runOn desk).1 = .error e ↔
          (desk.session.store.update desk.files desk.now named.storedNames).1 = .error e) ∧
        ∀ outcome after, configure.runOn desk = (.ok outcome, after) →
          outcome = { status := .updated, config := named } ∧ after.config = .ok named ∧
            ∃ stored, desk.snapshot = .ok stored ∧
              after.snapshot = .ok (stored.update named.storedNames)) ∧
    ((∀ key ∈ Session.names, desk.host.answers.get? key = none) →
      desk.host.answered config = .ok config) ∧
    (desk.session.store.path = none → desk.session.defaults.AllNames Json.IsCopied →
      ∀ e, (configure.runOn desk).1 = .error e ↔ desk.host.AsksInVain e) := by
  refine ⟨fun e hvain => ?_, fun hcancels => ?_, fun hgoes htaken => ?_, fun hanswers => ?_,
    fun hpath hdefaults e => ?_⟩
  · exact runOn_configure_of_answers hconfig ((Host.configured_eq_error_iff _).mpr hvain)
  · exact runOn_configure_of_none hconfig (Host.configured_eq_none_iff.mpr hcancels)
  · rcases hvalues : desk.host.configured config with e | (_ | values)
    · exact absurd ((Host.configured_eq_error_iff _).mp hvalues) (htaken e)
    · exact absurd (Host.configured_eq_none_iff.mp hvalues) hgoes
    · obtain ⟨named, hnamed, rfl⟩ := Host.exists_answered_of_configured hvalues
      exact ⟨named, hnamed, fun e => configure_eq_error_iff_update hkeeps hconfig hvalues,
        fun outcome after hrun => stored_of_configure hkeeps hconfig hvalues hnamed hbase hrun⟩
  · exact Host.answered_eq_self hanswers config
  · exact configure_eq_error_iff_inMemory hpath hconfig hdefaults

end Command

end StepGlue

/-! ### Some names answered, and a directory in the place of the file -/

namespace StepGlue

open Store
open Json (Object)

attribute [local instance] Machine.plain

/-- Names in memory, of which the base class is to be given up. -/
def namesInMemory : Object :=
  [("className", .str "Old"), ("baseTestClass", .str "Base")]

def answeringDesk : Desk :=
  { memoryDesk namesInMemory with
    host := Host.ofRequest none none none none
      [("packageName", .str "p"), ("baseTestClass", .str "")] }

theorem keepsObjects_answeringDesk : answeringDesk.session.KeepsObjects where
  holdsSection := nofun
  defaults := ⟨⟨.str _, rfl⟩, ⟨.str _, rfl⟩, nofun⟩
  memory := .obj (by decide) (List.forall_mem_cons.mpr
    ⟨.str "Old", List.forall_mem_singleton.mpr (.str "Base")⟩)

theorem configure_goes_by_answers_of_memory :
    (answeringDesk.session.KeepsObjects ∧ answeringDesk.session.defaults.BaseIsGiven) ∧
    ∃ before after, answeringDesk.config = .ok before ∧
      Command.configure.runOn answeringDesk = (.ok
        { status := .updated
          config := { before with packageName := .str "p", baseTestClass := none } }, after) ∧
      after.snapshot = .ok [("className", .str "Old"), ("baseTestClass", .str ""),
        ("packageName", .str "p")] := by
  have hbase : answeringDesk.session.defaults.BaseIsGiven := nofun
  have hconfig : answeringDesk.config =
      .ok { plainSettings.defaults with
        className := .str "Old", baseTestClass := some (.str "Base") } :=
    rfl
  have hvain : ∀ e, ¬answeringDesk.host.AsksInVain e := by
    rintro e ⟨key, hasks, hprompt⟩
    cases hasks <;> cases hprompt
  have hnull : ¬answeringDesk.host.CancelsConfigure := by
    rintro (hnull | ⟨-, hnull⟩) <;> cases hnull
  obtain ⟨-, -, hgoes, -, hmemory⟩ :=
    Command.configure_goes_by_answers keepsObjects_answeringDesk hbase hconfig
  obtain ⟨named, hnamed, -, hstored⟩ := hgoes hnull hvain
  obtain rfl := Except.ok.inj hnamed
  rcases hrun : Command.configure.runOn answeringDesk with ⟨result, after⟩
  cases result with
  | error e =>
    have hfails := (hmemory rfl ⟨within_none _, within_none _, nofun⟩ e).mp (by rw [hrun])
    exact absurd hfails (hvain e)
  | ok outcome =>
    obtain ⟨rfl, -, stored, hbefore, hsnapshot⟩ := hstored outcome after hrun
    obtain rfl : namesInMemory = stored := Except.ok.inj hbefore
    exact ⟨⟨keepsObjects_answeringDesk, hbase⟩, _, after, hconfig, rfl, hsnapshot⟩

/-- There is a configuration and nothing cancels, but the names cannot be stored, or an answer
cannot be shown. -/
theorem not_exists_configured_of_failures :
    ((∃ config, directoryDesk.config = .ok config) ∧ ¬directoryDesk.host.CancelsConfigure ∧
      ¬∃ outcome, (Command.configure.runOn directoryDesk).1 = .ok outcome) ∧
    let _ := Machine.shallow
    let desk := { memoryDesk [] with
      host := Host.ofRequest none none none none [("packageName", Json.tower 5)] }
    (∃ config, desk.config = .ok config) ∧ ¬desk.host.CancelsConfigure ∧
      ¬∃ outcome, (Command.configure.runOn desk).1 = .ok outcome := by
  have hdirectory : (Command.configure.runOn directoryDesk).1 =
      .error (.file { cause := .isADirectory, path := "s.json" }) :=
    rfl
  refine ⟨⟨⟨_, rfl⟩, ?_, ?_⟩, ⟨_, rfl⟩, ?_, ?_⟩
  · rintro (hnull | ⟨-, hnull⟩) <;> cases hnull
  · rintro ⟨outcome, houtcome⟩
    cases hdirectory.symm.trans houtcome
  · rintro (hnull | ⟨-, hnull⟩) <;> cases hnull
  · rintro ⟨outcome, houtcome⟩
    cases houtcome

end StepGlue
