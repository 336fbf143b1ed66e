import StepGlue.Proofs.Session.Generate

/-!
# What one command does

A command on the settings, whether it returns or fails, leaves the settings and the files alone, or
writes one file for its host, or sets some values in the store.
-/

namespace StepGlue

open Json (Object)

/-- A command on the settings, with what it is given. -/
inductive Call where
  | addDefaults
  | update (values : Object)
  | configure
  | generate (selectionOnly : Bool) (overrides : Object)

variable [Machine]

/-- The desk after a command, whether it returns or fails. -/
def Call.after (call : Call) (desk : Desk) : Desk :=
  match call with
  | addDefaults => (Command.initializeSettings.runOn desk).2
  | update values => ((Command.updateSettings values).runOn desk).2
  | configure => (Command.configure.runOn desk).2
  | generate selectionOnly overrides => ((Command.generate selectionOnly overrides).runOn desk).2

namespace Session

/-- What is stored unless there is something. -/
def defaultNames (s : Session) : Object :=
  [("packageName", s.defaults.packageName), ("className", s.defaults.className)]

end Session

theorem Command.runOn_initializeSettings {desk : Desk} {result : Except Failure Object}
    {store : Store} {files : FileTree}
    (hadd : desk.session.store.addMissing desk.files desk.now desk.session.defaultNames =
      (result, store, files)) :
    initializeSettings.runOn desk = (result, desk.withStore store files) := by
  rw [initializeSettings, runOn_bind, runOn_get]
  exact runOn_storing hadd

namespace Desk

variable {desk after : Desk} {call : Call}

/-- Whether a command may set some values at a desk. -/
inductive Sets (desk : Desk) (call : Call) : Object → Prop
  | changes {values changes : Object} (hcall : call = .update values)
      (hchanges : Session.changes values = .ok changes) : Sets desk call changes
  | names {config : Config} {values : Object} (hconfig : desk.config = .ok config)
      (hvalues : desk.host.configured config = .ok (some values)) : Sets desk call values

/-- What a command does to the settings and the files. -/
inductive Effect (desk : Desk) (call : Call) : Session → FileTree → Prop
  | nothing : Effect desk call desk.session desk.files
  | wrote {selectionOnly : Bool} {overrides : Object} {name : String} {files : FileTree}
      (hcall : call = .generate selectionOnly overrides)
      (hchoice : desk.host.followUp? = some "Create File")
      (hname : desk.fileName? = .ok (some name))
      (hframe : FileTree.Frame (desk.host.Writes name) desk.files files) :
      Effect desk call desk.session files
  | updated {values : Object} {result : Except Failure Object} {store : Store} {files : FileTree}
      (hvalues : desk.Sets call values)
      (hupdate : desk.session.store.update desk.files desk.now values = (result, store, files)) :
      Effect desk call { desk.session with store } files
  | added {result : Except Failure Object} {store : Store} {files : FileTree}
      (hadd : desk.session.store.addMissing desk.files desk.now desk.session.defaultNames =
        (result, store, files)) : Effect desk call { desk.session with store } files

theorem IsTold.effect (h : desk.IsTold after) : desk.Effect call after.session after.files := by
  obtain ⟨_, -, rfl⟩ := h
  exact .nothing

omit [Machine] in
theorem IsCopied.session_files_eq {code : String} (h : desk.IsCopied code after) :
    after.session = desk.session ∧ after.files = desk.files := by
  obtain ⟨_, rfl⟩ := h
  exact ⟨rfl, rfl⟩

theorem effect_addDefaults :
    desk.Effect call (Call.addDefaults.after desk).session (Call.addDefaults.after desk).files := by
  rcases hadd : desk.session.store.addMissing desk.files desk.now desk.session.defaultNames with
    ⟨result, store, files⟩
  rw [Call.after, Command.runOn_initializeSettings hadd]
  exact .added hadd

theorem effect_update (values : Object) :
    desk.Effect (.update values) (Call.after (.update values) desk).session
      (Call.after (.update values) desk).files := by
  rw [Call.after]
  cases hchanges : Session.changes values with
  | error e =>
    rw [Command.runOn_updateSettings_of_error hchanges]
    exact .nothing
  | ok changes =>
    by_cases hany : changes = []
    · subst hany
      rw [Command.runOn_updateSettings_of_nil hchanges]
      exact .nothing
    · rcases hupdate : desk.session.store.update desk.files desk.now changes with
        ⟨result, store, files⟩
      rw [Command.runOn_updateSettings hchanges hany hupdate]
      exact .updated (.changes rfl hchanges) hupdate

theorem effect_configure :
    desk.Effect call (Call.configure.after desk).session (Call.configure.after desk).files := by
  rw [Call.after]
  cases hconfig : desk.config with
  | error e =>
    rw [Command.runOn_configure_of_error hconfig]
    exact .nothing
  | ok config =>
    rcases hvalues : desk.host.configured config with e | (_ | values)
    · rw [Command.runOn_configure_of_answers hconfig hvalues]
      exact .nothing
    · rw [Command.runOn_configure_of_none hconfig hvalues]
      exact .nothing
    · rcases hupdate : desk.session.store.update desk.files desk.now values with
        ⟨result, store, files⟩
      obtain ⟨_, ⟨_, -, rfl⟩, hrun⟩ := Command.exists_runOn_configure hconfig hvalues hupdate
      rw [hrun]
      exact .updated (.names hconfig hvalues) hupdate

theorem FollowsUp.effect {code : String} {file : Except Failure (Option FileOutcome)}
    (h : desk.FollowsUp code file after) (selectionOnly : Bool) (overrides : Object) :
    desk.Effect (.generate selectionOnly overrides) after.session after.files := by
  cases h with
  | nothing _ hafter | viewed _ hafter | unanswered _ _ hafter | unnamed _ _ hafter =>
    obtain ⟨hsession, hfiles⟩ := hafter.session_files_eq
    rw [hsession, hfiles]
    exact .nothing
  | written hchoice hname hafter =>
    obtain ⟨hsession, hfiles⟩ := hafter.session_files_eq
    rw [hsession, hfiles]
    exact .wrote rfl hchoice hname (desk.host.frame_writeFile _ _ _)
  | configured _ hafter =>
    obtain ⟨hsession, hfiles⟩ := hafter.session_files_eq
    rw [hsession, hfiles]
    exact effect_configure

theorem effect_generate (selectionOnly : Bool) (overrides : Object) :
    desk.Effect (.generate selectionOnly overrides)
      (Call.after (.generate selectionOnly overrides) desk).session
      (Call.after (.generate selectionOnly overrides) desk).files := by
  have hproceeds := Command.proceeds_generate desk selectionOnly overrides
  rw [Call.after]
  generalize (Command.generate selectionOnly overrides).runOn desk = run at hproceeds ⊢
  cases hproceeds with
  | stops _ _ htold => exact htold.effect
  | goesOn _ htold =>
    rename_i info before _
    cases hgenerated : before.session.generate before.files (desk.host.chosenText selectionOnly)
        overrides with
    | error e =>
      rw [Command.runOn_generateFrom_of_error info hgenerated]
      exact htold.effect
    | ok generation =>
      by_cases hnil : generation.methods = []
      · obtain ⟨after, hafter, hrun⟩ :=
          Command.exists_runOn_generateFrom_of_nil info hgenerated hnil
        rw [hrun]
        exact (htold.trans hafter).effect
      · obtain ⟨file, after, hfollows, hrun⟩ :=
          Command.exists_runOn_generateFrom info htold hgenerated hnil
        rw [hrun]
        exact hfollows.effect selectionOnly overrides

theorem effect_after (call : Call) (desk : Desk) :
    desk.Effect call (call.after desk).session (call.after desk).files := by
  cases call with
  | addDefaults => exact effect_addDefaults
  | update values => exact effect_update values
  | configure => exact effect_configure
  | generate selectionOnly overrides => exact effect_generate selectionOnly overrides

/-! ### What no command does -/

namespace Effect

variable {session : Session} {files : FileTree} (h : desk.Effect call session files)
include h

/-- Of a session only what its store keeps in memory changes. -/
theorem exists_memory :
    ∃ memory, session = { desk.session with store := { desk.session.store with memory } } := by
  cases h with
  | nothing => exact ⟨desk.session.store.memory, rfl⟩
  | wrote => exact ⟨desk.session.store.memory, rfl⟩
  | @updated values _ _ _ _ hupdate =>
    obtain ⟨memory, hmemory⟩ := desk.session.store.exists_memory_update desk.files desk.now values
    rw [hupdate] at hmemory
    exact ⟨memory, congrArg (fun store => { desk.session with store }) hmemory⟩
  | added hadd =>
    obtain ⟨memory, hmemory⟩ := desk.session.store.exists_memory_addMissing desk.files desk.now
      desk.session.defaultNames
    rw [hadd] at hmemory
    exact ⟨memory, congrArg (fun store => { desk.session with store }) hmemory⟩

/-- Files are changed by the store, or by the host. -/
theorem getsFile_or_frame :
    desk.files.GetsFile files ∨ ∃ changed, FileTree.Frame changed desk.files files := by
  cases h with
  | nothing => exact .inl (.refl _)
  | wrote _ _ _ hframe => exact .inr ⟨_, hframe⟩
  | @updated values _ _ _ _ hupdate =>
    have hgets := desk.session.store.getsFile_update desk.files desk.now values
    rw [hupdate] at hgets
    exact .inl hgets
  | added hadd =>
    have hgets := desk.session.store.getsFile_addMissing desk.files desk.now
      desk.session.defaultNames
    rw [hadd] at hgets
    exact .inl hgets

theorem workingDirectory_eq : files.workingDirectory = desk.files.workingDirectory := by
  rcases h.getsFile_or_frame with hgets | ⟨_, hframe⟩
  · exact hgets.workingDirectory_eq
  · exact hframe.workingDirectory_eq

/-- No directory goes away. -/
theorem isDirectory_eq {p : Path} (hp : desk.files.isDirectory p = .ok true) :
    files.isDirectory p = .ok true := by
  rcases h.getsFile_or_frame with hgets | ⟨_, hframe⟩
  · exact hgets.isDirectory_eq hp
  · exact hframe.isDirectory_eq hp

end Effect

end Desk

end StepGlue
