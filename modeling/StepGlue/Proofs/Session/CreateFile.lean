import StepGlue.Proofs.Session.Rejection
import StepGlue.Proofs.Workspace.Write

/-!
# Creating a file tells what became of it

A file that was created is there with its text; if it failed, no file has changed, and the host has
noted and told that once; if it was cancelled, nothing has happened. What stops the command instead
is an answer that cannot be shown, or what hinders its file from being written.
-/

namespace StepGlue

open Text

section Creating

variable [Machine]

/-! ### What a host notes -/

namespace Host

variable {h : Host} {t t' : FileTree} {path text : String}

/-- Whether a file is neither written nor refused below the root of a host. -/
def IsHindered (h : Host) (t : FileTree) (path text : String) : Prop :=
  ∃ w, h.workspace = some w ∧ w.Hinders t path text

theorem exists_writeFile_error_iff (hproject : ∀ w, h.workspace = some w → w.IsProject) :
    (∃ e, (h.writeFile t path text).1 = .error e) ↔ h.IsHindered t path text := by
  simp only [writeFile_eq_error_iff]
  constructor
  · rintro ⟨e, w, hw, hfails, hrefuses⟩
    exact ⟨w, hw, (hproject w hw).exists_error_iff_hinders.mp ⟨e, hfails, hrefuses⟩⟩
  · rintro ⟨w, hw, hhinders⟩
    obtain ⟨e, hfails, hrefuses⟩ := (hproject w hw).exists_error_iff_hinders.mpr hhinders
    exact ⟨e, w, hw, hfails, hrefuses⟩

/-- With a root, a host writes below it and notes a file that was written or refused. -/
theorem writeFile_cases {w : Workspace} (hw : h.workspace = some w) (t : FileTree)
    (path text : String) :
    (∃ written t', w.write t path text true = (.ok written, t') ∧ h.writeFile t path text =
      (.ok true, h.record { path := written, success := true, error := none }, t')) ∨
    (∃ e t', w.write t path text true = (.error e, t') ∧ e.refusesFile ∧ h.writeFile t path text =
      (.ok false, h.record { path, success := false, error := some e.message }, t')) ∨
    ∃ e t', h.writeFile t path text = (.error e, h, t') := by
  rw [writeFile, hw]
  dsimp only
  rcases w.write t path text true with ⟨result, t'⟩
  cases result with
  | ok written => exact .inl ⟨written, t', rfl, rfl⟩
  | error e =>
    cases hrefuses : e.refusesFile with
    | true => exact .inr (.inl ⟨e, t', rfl, hrefuses, by simp [hrefuses]⟩)
    | false => exact .inr (.inr ⟨e, t', by simp [hrefuses]⟩)

end Host

/-! ### What a desk says -/

namespace Desk

variable {desk : Desk} {w : Workspace} {text name : String} {outcome : FileOutcome}

/-- The text of a file that is created: the one that is given, or the code for the sample steps. -/
def fileText (desk : Desk) (content : Option String) : Except Failure String :=
  match content with
  | some text => .ok text
  | none => (desk.session.generate desk.files Command.sampleText []).map (·.code)

/-- The answer to the question for the name of a file. -/
def fileAnswer (desk : Desk) : Except Failure (Option String) :=
  desk.host.prompt "fileName" (some desk.session.stepFileName)

theorem fileName?_eq_none_iff :
    desk.fileName? = .ok none ↔ desk.fileAnswer = .ok none ∨ desk.fileAnswer = .ok (some "") := by
  rw [fileName?, ← fileAnswer, map_eq_ok_iff]
  simp only [Option.filter_eq_none_iff]
  rcases desk.fileAnswer with e | (_ | answer) <;> simp

theorem fileName?_eq_error_iff {e : Failure} :
    desk.fileName? = .error e ↔ desk.fileAnswer = .error e :=
  map_eq_error_iff

/-- Whether the outcome of creating a file of a text is what became of the file. -/
structure IsTruthful (desk : Desk) (w : Workspace) (text : String) (outcome : FileOutcome)
    (after : Desk) : Prop where
  created : outcome.status = .created → ∃ name place,
    desk.fileName? = .ok (some name) ∧ w.writablePlace name = .ok place ∧
      after.files.find? place.toPath = .ok (some (.file (.text text))) ∧
      desk.files.HasGained after.files (place.map EscapedBytes.canonical) text
  failed : outcome.status = .failed →
    (∀ place content, after.files.lookup? place = some (.file content) ↔
      desk.files.lookup? place = some (.file content)) ∧
    (∃ file, after.host.writtenFiles = desk.host.writtenFiles ++ [file] ∧ file.success = false) ∧
    ∃ notification, after.host.notifications = desk.host.notifications ++ [notification] ∧
      notification.level = "error"
  cancelled : outcome.status = .cancelled → after = desk

end Desk

namespace Command

variable {desk after : Desk} {w : Workspace} {text name : String} {outcome : FileOutcome}
  {content : Option String} {e : Failure}

theorem runOn_createFile_of_fileText (htext : desk.fileText content = .ok text) :
    (createFile content).runOn desk = (createFile (some text)).runOn desk := by
  cases content with
  | some text' => rw [Except.ok.inj htext]
  | none =>
    obtain ⟨generation, hgenerated, rfl⟩ := map_eq_ok_iff.mp htext
    rw [createFile_none, runOn_bind, defaultContent, runOn_bind, runOn_generateCode, hgenerated]
    rfl

theorem runOn_createFile_of_fileText_error (htext : desk.fileText content = .error e) :
    (createFile content).runOn desk = (.error e, desk) := by
  cases content with
  | some text' => cases htext
  | none =>
    rw [createFile_none, runOn_bind, defaultContent, runOn_bind, runOn_generateCode,
      map_eq_error_iff.mp htext]

theorem isTruthful_of_name (hproject : w.IsProject) (hworkspace : desk.host.workspace = some w)
    (hname : desk.fileName? = .ok (some name))
    (hrun : (createFile (some text)).runOn desk = (.ok outcome, after)) :
    desk.IsTruthful w text outcome after := by
  rw [runOn_createFile text hname, Desk.afterWriting] at hrun
  rcases Host.writeFile_cases hworkspace desk.files name text with
    ⟨written, t', hwrite, hhost⟩ | ⟨e, t', hwrite, hrefuses, hhost⟩ | ⟨e, t', hhost⟩
  · rw [hhost] at hrun
    obtain ⟨rfl, rfl⟩ : createdFile name true = outcome ∧ _ = after := by simpa using hrun
    refine ⟨fun _ => ?_, fun hstatus => ?_, fun hstatus => ?_⟩
    · obtain ⟨place, hplace, hfound, hgained⟩ := hproject.hasGained_of_write hwrite
      exact ⟨name, place, hname, hplace, hfound, hgained⟩
    · cases hstatus
    · cases hstatus
  · rw [hhost] at hrun
    obtain ⟨rfl, rfl⟩ : createdFile name false = outcome ∧ _ = after := by simpa using hrun
    refine ⟨fun hstatus => ?_, fun _ => ?_, fun hstatus => ?_⟩
    · cases hstatus
    · exact ⟨Workspace.lookup?_file_of_write hwrite hrefuses, ⟨_, rfl, rfl⟩, _, rfl, rfl⟩
    · cases hstatus
  · rw [hhost] at hrun
    cases hrun

theorem isTruthful_of_run (hproject : w.IsProject) (hworkspace : desk.host.workspace = some w)
    (hrun : (createFile (some text)).runOn desk = (.ok outcome, after)) :
    desk.IsTruthful w text outcome after := by
  rcases hname : desk.fileName? with e | (_ | name)
  · rw [runOn_createFile_of_error text hname] at hrun
    cases hrun
  · rw [runOn_createFile_of_none text hname] at hrun
    obtain ⟨houtcome, rfl⟩ := Prod.mk.inj hrun
    obtain rfl := Except.ok.inj houtcome
    refine ⟨fun hstatus => ?_, fun hstatus => ?_, fun _ => rfl⟩
    · cases hstatus
    · cases hstatus
  · exact isTruthful_of_name hproject hworkspace hname hrun

/-- Creating a file is cancelled exactly if it has no name. -/
theorem cancelled_iff (text : String) :
    (∃ outcome, ((createFile (some text)).runOn desk).1 = .ok outcome ∧
      outcome.status = .cancelled) ↔ desk.fileName? = .ok none := by
  rcases hname : desk.fileName? with e | (_ | name)
  · rw [runOn_createFile_of_error text hname]
    simp
  · rw [runOn_createFile_of_none text hname]
    exact iff_of_true ⟨_, rfl, rfl⟩ rfl
  · obtain ⟨after, -, hrun⟩ := exists_runOn_createFile text hname
    rw [hrun]
    refine iff_of_false ?_ (by simp)
    rintro ⟨outcome, hok, hstatus⟩
    obtain ⟨written, -, rfl⟩ := map_eq_ok_iff.mp hok
    cases written <;> cases hstatus

theorem exists_createFile_error_iff (hproject : ∀ w, desk.host.workspace = some w → w.IsProject)
    (text : String) :
    (∃ e, ((createFile (some text)).runOn desk).1 = .error e) ↔
      (∃ e, desk.fileName? = .error e) ∨
        ∃ name, desk.fileName? = .ok (some name) ∧ desk.host.IsHindered desk.files name text := by
  simp only [createFile_some_eq_error_iff, Desk.CannotCreate,
    ← Host.exists_writeFile_error_iff hproject]
  constructor
  · rintro ⟨e, hname | ⟨name, hname, hwrite⟩⟩
    · exact .inl ⟨e, hname⟩
    · exact .inr ⟨name, hname, e, hwrite⟩
  · rintro (⟨e, hname⟩ | ⟨name, hname, e, hwrite⟩)
    · exact ⟨e, .inl hname⟩
    · exact ⟨e, .inr ⟨name, hname, hwrite⟩⟩

/-- Below a root, whatever creating a file ends in is true: a file that was created is where its
name leads and holds its text, and besides it only missing directories above it are new; if it
failed, every file is as it was, and one failed file and one error have been noted; it is cancelled
exactly if the answer is null or empty, and then nothing has changed. It has no outcome exactly if
there is no text for it, the answer cannot be shown, or its file is hindered. -/
theorem createFile_isTruthful (hproject : w.IsProject) (hworkspace : desk.host.workspace = some w)
    (content : Option String) :
    (∀ outcome after, (createFile content).runOn desk = (.ok outcome, after) →
      ∃ text, desk.fileText content = .ok text ∧ desk.IsTruthful w text outcome after) ∧
    ((∃ outcome, ((createFile content).runOn desk).1 = .ok outcome ∧
        outcome.status = .cancelled) ↔
      (∃ text, desk.fileText content = .ok text) ∧
        (desk.fileAnswer = .ok none ∨ desk.fileAnswer = .ok (some ""))) ∧
    ((∃ e, ((createFile content).runOn desk).1 = .error e) ↔
      (∃ e, desk.fileText content = .error e) ∨ ∃ text, desk.fileText content = .ok text ∧
        ((∃ e, desk.fileAnswer = .error e) ∨ ∃ name, desk.fileName? = .ok (some name) ∧
          w.Hinders desk.files name text)) := by
  simp only [← Desk.fileName?_eq_none_iff, ← Desk.fileName?_eq_error_iff]
  cases htext : desk.fileText content with
  | error e =>
    rw [runOn_createFile_of_fileText_error htext]
    simp
  | ok text =>
    rw [runOn_createFile_of_fileText htext, cancelled_iff,
      exists_createFile_error_iff fun w' hw' =>
        Option.some.inj (hworkspace.symm.trans hw') ▸ hproject]
    refine ⟨fun outcome after hrun =>
      ⟨text, rfl, isTruthful_of_run hproject hworkspace hrun⟩, by simp, ?_⟩
    simp [Host.IsHindered, hworkspace]

end Command

end Creating

section Created

attribute [local instance] Machine.plain

/-- A desk without settings whose host writes below the top directory of an empty tree. -/
def creatingDesk (name : String) : Desk :=
  stepDesk 4 (some { root := [] }) [("fileName", .str name)]

theorem isProject_top : ({ root := [] } : Workspace).IsProject :=
  ⟨.empty, "/", fun _ => nofun, fun _ => nofun, rfl⟩

/-- A file in a directory that is made for it. -/
theorem createFile_isTruthful_of_missing_directory :
    let desk := creatingDesk "a/Steps.java"
    let run := (Command.createFile (some "x")).runOn desk
    ({ root := [] } : Workspace).IsProject ∧ desk.host.workspace = some { root := [] } ∧
      ∃ outcome, run.1 = .ok outcome ∧ outcome.status = .created ∧
        desk.IsTruthful { root := [] } "x" outcome run.2 := by
  intro desk run
  have hcreated : run.1 =
      .ok { status := .created, targetPath := some "a/Steps.java", message := none } := by
    decide +kernel
  have hworkspace : desk.host.workspace = some { root := [] } := rfl
  obtain ⟨htruthful, -⟩ := Command.createFile_isTruthful isProject_top hworkspace (some "x")
  obtain ⟨text, htext, houtcome⟩ := htruthful _ run.2 (Prod.ext hcreated rfl)
  obtain rfl := Except.ok.inj htext
  exact ⟨isProject_top, hworkspace, _, hcreated, rfl, houtcome⟩

end Created

/-! ### What a host reports -/

section Reporting

variable [Machine]

namespace Host

variable {h : Host} {t : FileTree} {path text : String}

/-- Whether a host that is asked to write a file says whether it did, and notes that once. -/
def Reports (h : Host) (t : FileTree) (path text : String) : Prop :=
  ∃ file, (h.writeFile t path text).1 = .ok file.success ∧
    (h.writeFile t path text).2.1 = h.record file

theorem reports_iff_not_error :
    h.Reports t path text ↔ ¬∃ e, (h.writeFile t path text).1 = .error e := by
  rcases h.exists_record_writeFile t path text with ⟨file, hwrite, hhost⟩ | ⟨e, hwrite, -, -⟩
  · exact iff_of_true ⟨file, hwrite, hhost⟩ fun ⟨_, hfails⟩ => nomatch hwrite.symm.trans hfails
  · exact iff_of_false (fun ⟨_, hok, _⟩ => nomatch hwrite.symm.trans hok)
      (not_not_intro ⟨e, hwrite⟩)

end Host

/-- A host says whether it wrote a file and notes that once exactly if the file is not hindered, and
exactly then creating the file ends in an outcome, a failure if it was not written. -/
theorem Host.reports_writeFile_iff {h : Host} (hproject : ∀ w, h.workspace = some w → w.IsProject)
    (t : FileTree) (path text : String) :
    (h.Reports t path text ↔ ¬h.IsHindered t path text) ∧
    ∀ desk : Desk, desk.host = h → desk.files = t → desk.fileName? = .ok (some path) →
      ((∃ outcome, ((Command.createFile (some text)).runOn desk).1 = .ok outcome ∧
          (outcome.status = .failed ↔ (h.writeFile t path text).1 ≠ .ok true)) ↔
        ¬h.IsHindered t path text) := by
  rw [← exists_writeFile_error_iff hproject]
  refine ⟨reports_iff_not_error, ?_⟩
  rintro desk rfl rfl hname
  obtain ⟨after, -, hrun⟩ := Command.exists_runOn_createFile text hname
  rw [hrun]
  cases (desk.host.writeFile desk.files path text).1 with
  | error e => simp [Except.map]
  | ok written => cases written <;> simp [Except.map, Command.createdFile]

end Reporting

section Reported

attribute [local instance] Machine.plain

theorem reports_writeFile_of_plain_name :
    let h := (creatingDesk "a.java").host
    (∀ w, h.workspace = some w → w.IsProject) ∧ h.Reports .empty "a.java" "x" ∧
      ¬h.IsHindered .empty "a.java" "x" := by
  intro h
  have hproject : ∀ w, h.workspace = some w → w.IsProject :=
    fun w hw => Option.some.inj hw ▸ isProject_top
  have hwritten : (h.writeFile .empty "a.java" "x").1 = .ok true := by decide +kernel
  have hreports : h.Reports .empty "a.java" "x" :=
    Host.reports_iff_not_error.mpr fun ⟨_, hfails⟩ => nomatch hwritten.symm.trans hfails
  exact ⟨hproject, hreports,
    (Host.reports_writeFile_iff hproject .empty "a.java" "x").1.mp hreports⟩

/-- A null character in a name stops the command, and nothing is noted. -/
theorem not_reports_of_nul :
    let name := "a\x00.java"
    let desk := creatingDesk name
    desk.fileName? = .ok (some name) ∧ ¬desk.host.Reports desk.files name "x" ∧
      ((Command.createFile (some "x")).runOn desk).1 = .error .nulInPath := by
  intro name desk
  have hfails : (desk.host.writeFile desk.files name "x").1 = .error .nulInPath := by
    decide +kernel
  exact ⟨by decide +kernel, fun hreports => Host.reports_iff_not_error.mp hreports ⟨_, hfails⟩,
    by decide +kernel⟩

end Reported

end StepGlue
