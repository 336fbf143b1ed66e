import StepGlue.Proofs.Session.Reachable
import StepGlue.Proofs.Settings.Defaults
import StepGlue.Service.App

/-!
# Restarts of the service

Each start sets the package and the class in the settings file unless they are there. Once they are,
no later start writes the file, so they outlive every change of the environment.
-/

namespace StepGlue

open Json (Object)

variable [Machine]

/-- A start of the service: the settings of its environment, and the time. -/
structure Boot where
  settings : Settings
  now : String

namespace Boot

def start (boot : Boot) (files : FileTree) : Except Failure App :=
  (App.new boot.settings files boot.now).start

/-- The files after a start; one that is stopped leaves them as they are. -/
def filesAfter (boot : Boot) (files : FileTree) : FileTree :=
  match boot.start files with
  | .ok app => app.files
  | .error _ => files

end Boot

/-- What starts of the service one after the other give. -/
def restarts (files : FileTree) : List Boot → List (Except Failure App)
  | [] => []
  | boot :: boots => boot.start files :: restarts (boot.filesAfter files) boots

/-! ### One start -/

theorem App.openSession_eq (settings : Settings) (files : FileTree) :
    openSession settings files =
      ((Store.openFile files settings.settingsFile Store.defaultSection).1.map
          (newSession settings),
        (Store.openFile files settings.settingsFile Store.defaultSection).2) :=
  rfl

namespace Boot

variable {boot : Boot} {files files' : FileTree} {app : App} {session : Session} {store : Store}

/-- A start that opens the store sets what is missing, and goes on whether or not that fails. -/
theorem start_of_open {result : Except Failure Object} {store' : Store} {files'' : FileTree}
    (hopen : Store.openFile files boot.settings.settingsFile Store.defaultSection =
      (.ok store, files'))
    (hadd : store.addMissing files' boot.now (App.newSession boot.settings store).defaultNames =
      (result, store', files''))
    (hstart : boot.start files = .ok app) :
    app.files = files'' ∧ app.session = some (App.newSession boot.settings store') := by
  rw [start, App.start, App.openSession_eq] at hstart
  obtain ⟨level, -, hstart⟩ := bind_eq_ok_iff.mp hstart
  dsimp only [App.new] at hstart
  rw [hopen] at hstart
  dsimp only [Except.map] at hstart
  rw [App.run_eq (Command.runOn_initializeSettings hadd)] at hstart
  cases result with
  | error e =>
    obtain rfl := Except.ok.inj hstart
    exact ⟨rfl, rfl⟩
  | ok stored =>
    dsimp only at hstart
    split at hstart
    · obtain rfl := Except.ok.inj hstart
      exact ⟨rfl, rfl⟩
    · obtain rfl := Except.ok.inj hstart
      exact ⟨rfl, rfl⟩

theorem session_eq_none_of_open {e : Failure}
    (hopen : Store.openFile files boot.settings.settingsFile Store.defaultSection =
      (.error e, files'))
    (hstart : boot.start files = .ok app) : app.session = none := by
  rw [start, App.start, App.openSession_eq] at hstart
  obtain ⟨level, -, hstart⟩ := bind_eq_ok_iff.mp hstart
  dsimp only [App.new] at hstart
  rw [hopen] at hstart
  obtain rfl := Except.ok.inj hstart
  rfl

/-- Only an unknown log level stops a start. -/
theorem exists_start_iff : (∃ app, boot.start files = .ok app) ↔
    ∃ level, LogLevel.ofName boot.settings.logLevel = .ok level := by
  constructor
  · rintro ⟨app, hstart⟩
    obtain ⟨level, hlevel, -⟩ := bind_eq_ok_iff.mp hstart
    exact ⟨level, hlevel⟩
  · rintro ⟨level, hlevel⟩
    rw [start, App.start]
    dsimp only [App.new]
    rw [hlevel]
    dsimp only [bind, Except.bind]
    split
    · exact ⟨_, rfl⟩
    · split
      · exact ⟨_, rfl⟩
      · split <;> exact ⟨_, rfl⟩

end Boot

/-! ### Sessions on the settings file -/

/-- The store of a service on its settings file. -/
def App.settingsStore (path : Path) : Store where
  path := some path
  sectionName := Store.defaultSection
  memory := []

/-- Whether a session keeps its settings in a file, and the directory of the file is there. -/
structure Session.KeepsIn (path : Path) (s : Session) (files : FileTree) : Prop where
  exists_memory : ∃ memory, s.store = { App.settingsStore path with memory }
  isDirectory_parent : files.isDirectory path.parent = .ok true

namespace Session.KeepsIn

variable {path : Path} {s : Session} {files : FileTree} (h : s.KeepsIn path files)
include h

theorem snapshot_eq : s.store.snapshot files = (App.settingsStore path).snapshot files := by
  obtain ⟨memory, hstore⟩ := h.exists_memory
  rw [hstore]
  rfl

theorem after (v : Visit) : (v.after (s, files)).1.KeepsIn path (v.after (s, files)).2 := by
  have heffect := v.effect_after s files
  generalize v.after (s, files) = state at heffect ⊢
  obtain ⟨session, after⟩ := state
  obtain ⟨memory, hstore⟩ := h.exists_memory
  obtain ⟨memory', rfl⟩ := heffect.exists_memory
  refine ⟨⟨memory', ?_⟩, heffect.isDirectory_eq h.isDirectory_parent⟩
  change { s.store with memory := memory' } = _
  rw [hstore]

/-- Whatever commands are given, the settings stay in the file. -/
theorem afterAll (visits : List Visit) :
    (Session.afterAll visits (s, files)).1.KeepsIn path (Session.afterAll visits (s, files)).2 := by
  induction visits generalizing s files with
  | nil => exact h
  | cons v visits ih => exact ih (h.after v)

end Session.KeepsIn

/-- A start that has a session has it on the settings file. -/
theorem Boot.keepsIn_of_start {boot : Boot} {files : FileTree} {app : App} {session : Session}
    (hstart : boot.start files = .ok app) (hsession : app.session = some session) :
    session.KeepsIn boot.settings.settingsFile app.files := by
  rcases hopen : Store.openFile files boot.settings.settingsFile Store.defaultSection with
    ⟨opened, files'⟩
  cases opened with
  | error e =>
    rw [session_eq_none_of_open hopen hstart] at hsession
    cases hsession
  | ok store =>
    obtain ⟨rfl, hparent⟩ := Store.of_openFile hopen
    obtain ⟨hfiles, hafter⟩ := start_of_open hopen rfl hstart
    obtain rfl := Option.some.inj (hafter.symm.trans hsession)
    rw [hfiles]
    exact ⟨Store.exists_memory_addMissing _ _ _ _,
      (Store.getsFile_addMissing _ _ _ _).isDirectory_eq hparent⟩

/-! ### Restarts -/

/-- Whether the settings file, whose directory is there, has a package and a class. -/
structure NamesAreStored (path : Path) (files : FileTree) (stored : Object) : Prop where
  isDirectory_parent : files.isDirectory path.parent = .ok true
  snapshot_eq : (App.settingsStore path).snapshot files = .ok stored
  contains_packageName : stored.contains "packageName"
  contains_className : stored.contains "className"

namespace NamesAreStored

variable {path : Path} {files : FileTree} {stored : Object} {boot : Boot} {boots : List Boot}
  {app : App} (h : NamesAreStored path files stored)
include h

/-- A start that finds both names writes nothing. -/
theorem start_eq (hpath : boot.settings.settingsFile = path) (hstart : boot.start files = .ok app) :
    app.files = files ∧
      app.session = some (App.newSession boot.settings (App.settingsStore path)) := by
  have hopen : Store.openFile files boot.settings.settingsFile Store.defaultSection =
      (.ok (App.settingsStore path), files) := by
    rw [Store.openFile, hpath, FileTree.ensureDirectories_of_isDirectory h.isDirectory_parent]
    rfl
  refine Boot.start_of_open hopen (Store.addMissing_of_complete h.snapshot_eq ?_ boot.now) hstart
  exact List.forall_mem_cons.mpr
    ⟨h.contains_packageName, List.forall_mem_singleton.mpr h.contains_className⟩

theorem filesAfter_eq (hpath : boot.settings.settingsFile = path) :
    boot.filesAfter files = files := by
  rw [Boot.filesAfter]
  split
  · rename_i hstart
    exact (h.start_eq hpath hstart).1
  · rfl

/-- However often the service is started, it writes nothing. -/
theorem exists_boot_of_mem_restarts (hboots : ∀ boot ∈ boots, boot.settings.settingsFile = path)
    (happ : .ok app ∈ restarts files boots) :
    ∃ boot ∈ boots, app.files = files ∧
      app.session = some (App.newSession boot.settings (App.settingsStore path)) := by
  induction boots with
  | nil => exact absurd happ List.not_mem_nil
  | cons boot boots ih =>
    obtain ⟨hboot, hrest⟩ := List.forall_mem_cons.mp hboots
    rw [restarts, h.filesAfter_eq hboot, List.mem_cons] at happ
    rcases happ with hstart | happ
    · exact ⟨boot, List.mem_cons_self, h.start_eq hboot hstart.symm⟩
    · obtain ⟨later, hlater, hfound⟩ := ih hrest happ
      exact ⟨later, List.mem_cons_of_mem _ hlater, hfound⟩

end NamesAreStored

/-! ### The names in force -/

namespace Session

variable {s : Session} {files : FileTree} {stored : Object} {config : Config} {p c : Json}

/-- Names that are stored are those of the configuration, whatever the defaults are. -/
theorem names_eq_of_stored (hsnapshot : s.store.snapshot files = .ok stored)
    (hpackage : stored.given? "packageName" = some p) (hclass : stored.given? "className" = some c)
    (hconfig : s.currentConfig files [] = .ok config) :
    config.packageName = p ∧ config.className = c := by
  obtain ⟨stored', hstored', hresolves⟩ := resolves_of_currentConfig hconfig
  obtain rfl := Except.ok.inj (hsnapshot.symm.trans hstored')
  have hp := hresolves.packageName
  have hc := hresolves.className
  rw [Config.findSome?_stored rfl, hpackage] at hp
  rw [Config.findSome?_stored rfl, hclass] at hc
  exact ⟨hp, hc⟩

end Session

/-- Names that are given in the section are there. -/
theorem Session.KeepsIn.namesAreStored {path : Path} {s : Session} {files : FileTree}
    {stored : Object} {p c : Json} (h : s.KeepsIn path files)
    (hsnapshot : s.store.snapshot files = .ok stored)
    (hpackage : stored.given? "packageName" = some p)
    (hclass : stored.given? "className" = some c) : NamesAreStored path files stored := by
  refine ⟨h.isDirectory_parent, h.snapshot_eq.symm.trans hsnapshot, ?_, ?_⟩
  · rw [Object.contains, (Session.get?_eq_of_given? hpackage).1]
    rfl
  · rw [Object.contains, (Session.get?_eq_of_given? hclass).1]
    rfl

/-- Whether a service goes on where a session has stopped: the files are the same, there is a
configuration if there was one, and it has a package and a class that are given. -/
structure App.GoesOn (session : Session) (files : FileTree) (p c : Json) (later : App) : Prop where
  files_eq : later.files = files
  exists_session : ∃ session', later.session = some session' ∧
    ((∃ config, session'.currentConfig later.files [] = .ok config) ↔
      ∃ config, session.currentConfig files [] = .ok config) ∧
    ∀ config, session'.currentConfig later.files [] = .ok config →
      config.packageName = p ∧ config.className = c

theorem Session.KeepsIn.goesOn {path : Path} {s : Session} {files : FileTree} {stored : Object}
    {p c : Json} {boots : List Boot} {later : App} (h : s.KeepsIn path files)
    (hsnapshot : s.store.snapshot files = .ok stored)
    (hpackage : stored.given? "packageName" = some p) (hclass : stored.given? "className" = some c)
    (hboots : ∀ boot ∈ boots, boot.settings.settingsFile = path)
    (hlater : .ok later ∈ restarts files boots) : App.GoesOn s files p c later := by
  have hnames := h.namesAreStored hsnapshot hpackage hclass
  obtain ⟨boot, -, hfiles, hsession⟩ := hnames.exists_boot_of_mem_restarts hboots hlater
  have hfound : (App.newSession boot.settings (App.settingsStore path)).store.snapshot
      later.files = .ok stored := by
    rw [hfiles]
    exact hnames.snapshot_eq
  refine ⟨hfiles, _, hsession, ?_, fun config hconfig => ?_⟩
  · rw [Session.exists_currentConfig_iff_isReadable hfound,
      Session.exists_currentConfig_iff_isReadable hsnapshot]
  · exact Session.names_eq_of_stored hfound hpackage hclass hconfig

/-- **Defaults only fill gaps.** Where a section lacks none of the defaults, nothing is written, and
else what it lacks is added and nothing else is changed. So once the commands of a service have left
a package and a class in its settings file, it writes no file however often it is started again with
another environment, and the package and the class in force are the stored ones. -/
theorem defaults_fill_gaps :
    (∀ (s : Store) (t : FileTree) (now : String) (defaults stored : Object),
      s.snapshot t = .ok stored → (∀ key ∈ PairList.keys defaults, stored.contains key) →
        s.addMissing t now defaults = (.ok stored, s, t)) ∧
    (∀ (s : Store) (t : FileTree) (now : String) (defaults : Object),
      s.HoldsSection → (Json.obj s.memory).WellFormed → (Json.obj defaults).WellFormed →
        s.FillsGaps t now defaults) ∧
    ∀ (first : Boot) (files files' : FileTree) (app : App) (session s : Session)
      (visits : List Visit) (stored : Object) (p c : Json), first.start files = .ok app →
      app.session = some session → Session.afterAll visits (session, app.files) = (s, files') →
      s.store.snapshot files' = .ok stored → stored.given? "packageName" = some p →
      stored.given? "className" = some c → ∀ boots : List Boot,
        (∀ boot ∈ boots, boot.settings.settingsFile = first.settings.settingsFile) →
        ∀ later, .ok later ∈ restarts files' boots → App.GoesOn s files' p c later := by
  refine ⟨fun s t now defaults stored hstored hcomplete => ?_,
    fun s t now defaults hsection hmemory hdefaults => ?_, ?_⟩
  · exact Store.addMissing_of_complete hstored hcomplete now
  · exact Store.fillsGaps hsection hmemory hdefaults t now
  · intro first files files' app session s visits stored p c hstart hsession hvisits hsnapshot
      hpackage hclass boots hboots later hlater
    have hkeeps := (Boot.keepsIn_of_start hstart hsession).afterAll visits
    rw [hvisits] at hkeeps
    exact hkeeps.goesOn hsnapshot hpackage hclass hboots hlater

end StepGlue

/-! ### Two starts, and a directory in the place of the file -/

namespace StepGlue

open Store
open Json (Object)

attribute [local instance] Machine.plain

/-- A start whose environment has some package. -/
def bootOf (packageName : String) : Boot where
  settings := { plainSettings with settingsFile := FileTree.settingsPath, packageName }
  now := "t"

theorem exists_start_bootOf (packageName : String) (files : FileTree) :
    ∃ app, (bootOf packageName).start files = .ok app :=
  Boot.exists_start_iff.mpr ⟨20, show LogLevel.ofName "INFO" = .ok 20 by decide +kernel⟩

def namesOf (packageName : String) : Object :=
  [("packageName", .str packageName), ("className", .str "StepDefinitions")]

/-- The settings file that is made where there was none. -/
def firstFile : FileTree :=
  settingsFileOf (.text (Json.obj (onSettingsFile.written [] "t" (namesOf "a"))).layout)

theorem wellFormed_namesOf (packageName : String) : (Json.obj (namesOf packageName)).WellFormed :=
  .obj (show ["packageName", "className"].Nodup by decide) (List.forall_mem_cons.mpr
    ⟨.str packageName, List.forall_mem_singleton.mpr (.str "StepDefinitions")⟩)

theorem addMissing_of_no_file : onSettingsFile.addMissing .empty "t" (namesOf "a") =
    (.ok (namesOf "a"), onSettingsFile, firstFile) := by
  have hstorable : IsStorable (onSettingsFile.written [] "t" (namesOf "a")) :=
    ⟨⟨wellFormed_written isStorable_nil.isReadable.wellFormed (wellFormed_namesOf "a"), by decide⟩,
      within_none _, by decide⟩
  have hstored : onSettingsFile.snapshot .empty = .ok [] := rfl
  have hmissing : missing [] (namesOf "a") ≠ [] := List.cons_ne_nil _ _
  rw [addMissing_eq_update hstored hmissing]
  exact update_of_isStorable rfl rfl FileTree.isFilePath_empty hstorable

/-- A store in memory that has a null. -/
def nullInMemory : Store :=
  memoryOf [("a", .null)]

/-- A null that is stored is kept, and a package that is stored outlives its environment. -/
theorem defaults_fill_gaps_of_two_starts :
    nullInMemory.addMissing .empty "t" [("a", .int 1)] =
        (.ok [("a", .null)], nullInMemory, .empty) ∧
      nullInMemory.FillsGaps .empty "t" [("a", .int 1), ("b", .int 2)] ∧
      ∃ app session later, (bootOf "a").start .empty = .ok app ∧ app.session = some session ∧
        .ok later ∈ restarts app.files [bootOf "b"] ∧
        App.GoesOn session app.files (.str "a") (.str "StepDefinitions") later := by
  obtain ⟨app, hstart⟩ := exists_start_bootOf "a" .empty
  obtain ⟨later, hlater⟩ := exists_start_bootOf "b" app.files
  have hopen :
      openFile .empty FileTree.settingsPath defaultSection = (.ok onSettingsFile, .empty) := by
    rw [openFile, FileTree.ensureDirectories_of_isDirectory FileTree.isDirectory_empty]
    rfl
  obtain ⟨hfiles, hsession⟩ := Boot.start_of_open hopen addMissing_of_no_file hstart
  have hsection : onSettingsFile.HoldsSection := fun _ => by decide
  have hmemory : (Json.obj onSettingsFile.memory).WellFormed :=
    .obj List.nodup_nil fun _ hmem => absurd hmem List.not_mem_nil
  have hsnapshot : onSettingsFile.snapshot app.files = .ok (namesOf "a") := by
    rw [hfiles]
    exact (snapshot_of_addMissing hsection hmemory (wellFormed_namesOf "a")
      addMissing_of_no_file).1
  have hmem : .ok later ∈ restarts app.files [bootOf "b"] := by
    rw [restarts, hlater]
    exact List.mem_cons_self
  refine ⟨defaults_fill_gaps.1 _ _ _ _ _ rfl (by decide), ?_, app, _, later, hstart, hsession, hmem,
    ?_⟩
  · exact defaults_fill_gaps.2.1 _ _ _ _ (absurd rfl)
      (.obj (List.nodup_singleton _) (List.forall_mem_singleton.mpr .null))
      (.obj (by decide) (List.forall_mem_cons.mpr
        ⟨.int 1, List.forall_mem_singleton.mpr (.int 2)⟩))
  · exact defaults_fill_gaps.2.2 (bootOf "a") .empty app.files app _ _ [] (namesOf "a") (.str "a")
      (.str "StepDefinitions") hstart hsession rfl hsnapshot rfl rfl [bootOf "b"]
      (List.forall_mem_singleton.mpr rfl) later hmem

/-- A directory in the place of the file is an empty section, but nothing can be added. -/
theorem not_exists_addMissing_of_directory :
    onSettingsFile.snapshot (FileTree.empty.put ["s.json"] .directory) = .ok [] ∧
      ¬∃ updated, (onSettingsFile.addMissing (FileTree.empty.put ["s.json"] .directory) "t"
        [("a", .int 1)]).1 = .ok updated := by
  have herror : (onSettingsFile.addMissing (FileTree.empty.put ["s.json"] .directory) "t"
      [("a", .int 1)]).1 = .error (.file { cause := .isADirectory, path := "s.json" }) :=
    rfl
  refine ⟨rfl, ?_⟩
  rintro ⟨updated, hupdated⟩
  cases herror.symm.trans hupdated

end StepGlue
