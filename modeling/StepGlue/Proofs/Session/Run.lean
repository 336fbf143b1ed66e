import StepGlue.Proofs.Machine
import StepGlue.Proofs.Settings.Memory
import StepGlue.Service.App

/-!
# Running commands

A command that is run at a desk has an outcome and leaves a desk behind, also where it fails.
Commands are told by these two, step by step.
-/

namespace StepGlue

open Json (Object)

namespace Desk

def withStore (desk : Desk) (store : Store) (files : FileTree) : Desk :=
  { desk with session := { desk.session with store }, files }

def onHost (desk : Desk) (f : Host → Host) : Desk :=
  { desk with host := f desk.host }

variable [Machine]

def snapshot (desk : Desk) : Except Failure Object :=
  desk.session.store.snapshot desk.files

/-- The configuration without overrides. -/
def config (desk : Desk) : Except Failure Config :=
  desk.session.currentConfig desk.files []

/-- The desk after its host has written a file, or tried to. -/
def afterWriting (desk : Desk) (path text : String) : Desk :=
  { desk with
    host := (desk.host.writeFile desk.files path text).2.1
    files := (desk.host.writeFile desk.files path text).2.2 }

end Desk

namespace Command

/-- What a command gives at a desk, and the desk after it. -/
def runOn {α : Type} (c : Command α) (desk : Desk) : Except Failure α × Desk :=
  (ExceptT.run c).run desk

theorem runOn_bind {α β : Type} (c : Command α) (f : α → Command β) (desk : Desk) :
    (c >>= f).runOn desk =
      match c.runOn desk with
      | (.error e, desk) => (.error e, desk)
      | (.ok a, desk) => (f a).runOn desk := by
  change (match c.runOn desk with | (r, desk) => (ExceptT.bindCont f r).run desk) = _
  obtain ⟨r, desk⟩ := c.runOn desk
  cases r <;> rfl

theorem runOn_pure {α : Type} (a : α) (desk : Desk) :
    (pure a : Command α).runOn desk = (.ok a, desk) :=
  rfl

theorem fst_runOn_map {α β : Type} (f : α → β) (c : Command α) (desk : Desk) :
    ((f <$> c).runOn desk).1 = (c.runOn desk).1.map f := by
  rw [← bind_pure_comp, runOn_bind]
  rcases c.runOn desk with ⟨result, after⟩
  cases result <;> rfl

/-! ### Single steps -/

theorem runOn_get (desk : Desk) : (get : Command Desk).runOn desk = (.ok desk, desk) :=
  rfl

theorem runOn_mapHost (f : Host → Host) (desk : Desk) :
    (mapHost f).runOn desk = (.ok (), desk.onHost f) :=
  rfl

theorem runOn_notify (message : String) (options : Host.NotifyOptions) (desk : Desk) :
    (notify message options).runOn desk =
      (.ok (desk.host.choice options), desk.onHost fun h => h.notify message options) :=
  rfl

theorem runOn_storing
    {change : Store → FileTree → String → Except Failure Object × Store × FileTree} {desk : Desk}
    {stored : Except Failure Object} {store : Store} {files : FileTree}
    (hchange : change desk.session.store desk.files desk.now = (stored, store, files)) :
    (storing change).runOn desk = (stored, desk.withStore store files) := by
  change ((change desk.session.store desk.files desk.now).1,
    desk.withStore (change desk.session.store desk.files desk.now).2.1
      (change desk.session.store desk.files desk.now).2.2) = _
  rw [hchange]

section Steps

variable [Machine]

theorem runOn_update {values : Object} {desk : Desk} {stored : Except Failure Object}
    {store : Store} {files : FileTree}
    (hupdate : desk.session.store.update desk.files desk.now values = (stored, store, files)) :
    (storing fun store files now => store.update files now values).runOn desk =
      (stored, desk.withStore store files) :=
  runOn_storing hupdate

theorem runOn_prompt (key : String) (default : Option String) (desk : Desk) :
    (prompt key default).runOn desk = (desk.host.prompt key default, desk) :=
  rfl

theorem runOn_currentConfig (overrides : Object) (desk : Desk) :
    (currentConfig overrides).runOn desk =
      (desk.session.currentConfig desk.files overrides, desk) :=
  rfl

theorem runOn_currentConfig_map {α : Type} (f : Config → α) (desk : Desk) :
    (currentConfig [] >>= fun config => pure (f config)).runOn desk =
      (desk.config.map f, desk) := by
  rw [runOn_bind, runOn_currentConfig, ← Desk.config]
  cases desk.config <;> rfl

theorem runOn_generateCode (text : String) (overrides : Object) (desk : Desk) :
    (generateCode text overrides).runOn desk =
      (desk.session.generate desk.files text overrides, desk) :=
  rfl

theorem runOn_writeFile (path text : String) (desk : Desk) :
    (writeFile path text).runOn desk =
      ((desk.host.writeFile desk.files path text).1, desk.afterWriting path text) :=
  rfl

end Steps

end Command

namespace App

variable {app : App}

/-- The desk that a service runs the commands of a session at. -/
def deskOf (app : App) (session : Session) : Desk :=
  { session, host := idleHost, files := app.files, now := app.now }

theorem run_eq {α : Type} {session : Session} {host : Host} {command : Command α}
    {result : Except Failure α} {desk : Desk}
    (hrun : command.runOn { session, host, files := app.files, now := app.now } = (result, desk)) :
    app.run session host command =
      (result, desk.host, { app with session := some desk.session, files := desk.files }) := by
  change (match command.runOn { session, host, files := app.files, now := app.now } with
    | (result, desk) =>
      (result, desk.host, { app with session := some desk.session, files := desk.files })) = _
  rw [hrun]

end App

/-! ### Services and desks without an environment -/

section Plain

variable [Machine]

/-- The settings of a service without an environment. -/
def plainSettings : Settings :=
  ((Settings.reading FileTree.settingsPath [] (.arr [])).run []).1

def serviceOn (store : Store) (files : FileTree) : App :=
  { App.new plainSettings files "t" with session := some (App.newSession plainSettings store) }

omit [Machine] in
/-- A store in memory that holds some values. -/
def memoryOf (memory : Object) : Store :=
  { Store.inMemory Store.defaultSection with memory }

def memoryDesk (memory : Object) : Desk :=
  (serviceOn (memoryOf memory) .empty).deskOf (App.newSession plainSettings (memoryOf memory))

/-- A desk with a directory in the place of the settings file. -/
def directoryDesk : Desk :=
  (serviceOn Store.onSettingsFile (FileTree.empty.put ["s.json"] .directory)).deskOf
    (App.newSession plainSettings Store.onSettingsFile)

end Plain

end StepGlue
