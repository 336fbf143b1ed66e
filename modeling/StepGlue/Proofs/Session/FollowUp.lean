import StepGlue.Proofs.Session.Commands

/-!
# Following up

Code that was generated is copied, and then one of three things is done with it, or nothing. Which
one it is the host has answered beforehand, and only that one leaves a trace.
-/

namespace StepGlue

open Json (Object)

/-! ### The choice -/

namespace Host

variable (h : Host)

def followUp? : Option String :=
  h.choice { key := some "followUp", choices := Command.followUps }

theorem choice_of_key {key : String} (hkey : key ≠ "") (level : String) (choices : List String) :
    h.choice { key := some key, level, choices } =
      match h.answers.get? key with
      | some (.str answer) => if choices.contains answer then some answer else none
      | _ => none := by
  rw [choice]
  split
  · rename_i hnone
    cases hnone
  · rename_i hempty
    exact absurd (Option.some.inj hempty) hkey
  · rename_i hsome
    obtain rfl := Option.some.inj hsome
    rfl

theorem followUp?_cases : h.followUp? = none ∨ h.followUp? = some "Create File" ∨
    h.followUp? = some "View Output" ∨ h.followUp? = some "Configure" := by
  rw [followUp?, choice_of_key h (by decide)]
  split
  · split
    · rename_i hmem
      simpa [Command.followUps] using hmem
    · exact .inl rfl
  · exact .inl rfl

end Host

/-! ### Hosts that were given some code -/

namespace Host

/-- A host writes the same whatever it was told and given before. -/
theorem writeFile_copied [Machine] (h : Host) (notifications : List Notification)
    (clipboard : Option String) (t : FileTree) (path text : String) :
    { h with notifications, clipboard }.writeFile t path text =
      ((h.writeFile t path text).1,
        { (h.writeFile t path text).2.1 with notifications, clipboard },
        (h.writeFile t path text).2.2) := by
  obtain ⟨_, _, _, workspace, _, _, _, _, _, _⟩ := h
  rw [writeFile, writeFile]
  cases workspace with
  | none => rfl
  | some w =>
    dsimp only
    rcases w.write t path text true with ⟨written, t'⟩
    cases written with
    | ok written => rfl
    | error e =>
      dsimp only
      cases e.refusesFile <;> rfl

end Host

namespace Desk

/-- Whether a desk differs from another one by a copy of some code, besides notifications. -/
def IsCopied (desk : Desk) (code : String) (after : Desk) : Prop :=
  ∃ notifications,
    after = { desk with host := { desk.host with notifications, clipboard := some code } }

variable {desk before after : Desk} {code : String}

theorem IsTold.isCopied (htold : desk.IsTold before)
    (hafter : (before.onHost fun h => h.setClipboard code).IsTold after) :
    desk.IsCopied code after := by
  obtain ⟨_, ⟨_, rfl⟩, rfl⟩ := htold
  obtain ⟨_, ⟨notifications, rfl⟩, rfl⟩ := hafter
  exact ⟨notifications, rfl⟩

theorem IsCopied.told (h : desk.IsCopied code before) (hafter : before.IsTold after) :
    desk.IsCopied code after := by
  obtain ⟨_, rfl⟩ := h
  obtain ⟨_, ⟨notifications, rfl⟩, rfl⟩ := hafter
  exact ⟨notifications, rfl⟩

variable [Machine]

theorem IsCopied.afterWriting (h : desk.IsCopied code before) (name text : String) :
    (desk.afterWriting name text).IsCopied code (before.afterWriting name text) := by
  obtain ⟨notifications, rfl⟩ := h
  refine ⟨notifications, ?_⟩
  simp only [Desk.afterWriting, Host.writeFile_copied]

end Desk

/-! ### The follow-ups -/

namespace Desk

variable [Machine]

/-- How the follow-up of some code may end, by the choice that was made. -/
inductive FollowsUp (desk : Desk) (code : String) :
    Except Failure (Option FileOutcome) → Desk → Prop
  | nothing {after : Desk} (hchoice : desk.host.followUp? = none)
      (hafter : desk.IsCopied code after) : FollowsUp desk code (.ok none) after
  | viewed {after : Desk} (hchoice : desk.host.followUp? = some "View Output")
      (hafter : (desk.onHost fun h => h.showPreview code "java").IsCopied code after) :
      FollowsUp desk code (.ok none) after
  | unanswered {e : Failure} {after : Desk} (hchoice : desk.host.followUp? = some "Create File")
      (hname : desk.fileName? = .error e) (hafter : desk.IsCopied code after) :
      FollowsUp desk code (.error e) after
  | unnamed {after : Desk} (hchoice : desk.host.followUp? = some "Create File")
      (hname : desk.fileName? = .ok none) (hafter : desk.IsCopied code after) :
      FollowsUp desk code
        (.ok (some { status := .cancelled, targetPath := none, message := none })) after
  | written {name : String} {after : Desk} (hchoice : desk.host.followUp? = some "Create File")
      (hname : desk.fileName? = .ok (some name))
      (hafter : (desk.afterWriting name code).IsCopied code after) :
      FollowsUp desk code
        ((desk.host.writeFile desk.files name code).1.map (some ∘ Command.createdFile name)) after
  | configured {after : Desk} (hchoice : desk.host.followUp? = some "Configure")
      (hafter : (Command.configure.runOn desk).2.IsCopied code after) :
      FollowsUp desk code ((Command.configure.runOn desk).1.map fun _ => none) after

end Desk

namespace Command

variable [Machine] {desk before : Desk} {code : String}

/-- A command that configures asks the host and heeds nothing else of it. -/
theorem exists_runOn_configure_of_isCopied (hbefore : desk.IsCopied code before) :
    ∃ after, (configure.runOn desk).2.IsCopied code after ∧
      configure.runOn before = ((configure.runOn desk).1, after) := by
  have hconfig : before.config = desk.config := by
    obtain ⟨_, rfl⟩ := hbefore
    rfl
  cases hdesk : desk.config with
  | error e =>
    rw [runOn_configure_of_error hdesk, runOn_configure_of_error (hconfig.trans hdesk)]
    exact ⟨before, hbefore, rfl⟩
  | ok config =>
    -- no answer is looked up in the clipboard or among the notifications
    have hanswers : before.host.configured config = desk.host.configured config := by
      obtain ⟨_, rfl⟩ := hbefore
      rfl
    rcases hvalues : desk.host.configured config with e | (_ | values)
    · rw [runOn_configure_of_answers hdesk hvalues,
        runOn_configure_of_answers (hconfig.trans hdesk) (hanswers.trans hvalues)]
      exact ⟨before, hbefore, rfl⟩
    · rw [runOn_configure_of_none hdesk hvalues,
        runOn_configure_of_none (hconfig.trans hdesk) (hanswers.trans hvalues)]
      exact ⟨before, hbefore, rfl⟩
    · rcases hupdate : desk.session.store.update desk.files desk.now values with
        ⟨stored, store, files⟩
      have hupdate' : before.session.store.update before.files before.now values =
          (stored, store, files) := by
        obtain ⟨_, rfl⟩ := hbefore
        exact hupdate
      obtain ⟨told, htold, hrun⟩ := exists_runOn_configure hdesk hvalues hupdate
      obtain ⟨after, hafter, hrun'⟩ :=
        exists_runOn_configure (hconfig.trans hdesk) (hanswers.trans hvalues) hupdate'
      have hstored :
          (before.withStore store files).config = (desk.withStore store files).config := by
        obtain ⟨_, rfl⟩ := hbefore
        rfl
      rw [hrun, hrun', hstored]
      refine ⟨after, ?_, rfl⟩
      obtain ⟨_, rfl⟩ := hbefore
      obtain ⟨_, ⟨_, rfl⟩, rfl⟩ := htold
      obtain ⟨_, ⟨notifications, rfl⟩, rfl⟩ := hafter
      exact ⟨notifications, rfl⟩

/-- The follow-up of code that was copied is the one that was chosen. -/
theorem exists_runOn_follow (hbefore : desk.IsCopied code before) :
    ∃ file after, desk.FollowsUp code file after ∧
      (follow code desk.host.followUp?).runOn before = (file, after) := by
  rcases desk.host.followUp?_cases with hchoice | hchoice | hchoice | hchoice
  · rw [hchoice, runOn_follow_none]
    exact ⟨_, _, .nothing hchoice hbefore, rfl⟩
  · rw [hchoice, runOn_follow_createFile]
    have hnames : before.fileName? = desk.fileName? := by
      obtain ⟨_, rfl⟩ := hbefore
      rfl
    rcases hname : desk.fileName? with e | (_ | name)
    · rw [runOn_createFile_of_error code (hnames.trans hname)]
      exact ⟨_, _, .unanswered hchoice hname hbefore, rfl⟩
    · rw [runOn_createFile_of_none code (hnames.trans hname)]
      exact ⟨_, _, .unnamed hchoice hname hbefore, rfl⟩
    · obtain ⟨after, hafter, hrun⟩ := exists_runOn_createFile code (hnames.trans hname)
      have hwrite : (before.host.writeFile before.files name code).1 =
          (desk.host.writeFile desk.files name code).1 := by
        obtain ⟨_, rfl⟩ := hbefore
        rw [Host.writeFile_copied]
      rw [hrun, hwrite]
      refine ⟨_, after, .written hchoice hname ((hbefore.afterWriting name code).told hafter), ?_⟩
      cases (desk.host.writeFile desk.files name code).1 <;> rfl
  · rw [hchoice, runOn_follow_viewOutput]
    refine ⟨_, _, .viewed hchoice ?_, rfl⟩
    obtain ⟨notifications, rfl⟩ := hbefore
    exact ⟨notifications, rfl⟩
  · obtain ⟨after, hafter, hrun⟩ := exists_runOn_configure_of_isCopied hbefore
    rw [hchoice, runOn_follow_configure, hrun]
    exact ⟨_, _, .configured hchoice hafter, rfl⟩

end Command

end StepGlue
