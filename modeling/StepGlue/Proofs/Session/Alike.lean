import StepGlue.Proofs.Session.Commands
import StepGlue.Proofs.Settings.Memory
import StepGlue.Proofs.Workspace.Outline

/-!
# Desks that differ in code

Code that was generated is copied, shown or written to a file, and no command reads it there. So two
desks whose settings are in memory, and which differ in such code only, stay like that if the same
is done at both (`Overlooks`), and also if different codes are written or shown.
-/

namespace StepGlue

open Json (Object)

/-- Two results that are equal, or that are free to differ in why they fail and in what a view of
them leaves out. -/
inductive ResultsAlike {α β : Type} (free : Prop) (view : α → β) :
    Except Failure α → Except Failure α → Prop
  | ok {a b : α} (hview : view b = view a) (hsame : free ∨ b = a) :
      ResultsAlike free view (.ok a) (.ok b)
  | error {e e' : Failure} (hsame : free ∨ e' = e) : ResultsAlike free view (.error e) (.error e')

namespace ResultsAlike

variable {α β : Type} {free : Prop} {view : α → β} {result result' : Except Failure α}

theorem refl (result : Except Failure α) : ResultsAlike free view result result := by
  cases result with
  | ok a => exact .ok rfl (.inr rfl)
  | error e => exact .error (.inr rfl)

theorem of_eq (h : result' = result) : ResultsAlike free view result result' :=
  h.symm ▸ refl result

theorem of_free (h : ResultsAlike free view result result') :
    ResultsAlike True view result result' := by
  cases h with
  | ok hview _ => exact .ok hview (.inl trivial)
  | error _ => exact .error (.inl trivial)

theorem eq (h : ResultsAlike free view result result') (hfree : ¬free) : result' = result := by
  cases h with
  | ok _ hsame => rw [hsame.resolve_left hfree]
  | error hsame => rw [hsame.resolve_left hfree]

end ResultsAlike

/-! ### Hosts and desks but for code -/

namespace Host

/-- A host without the code that it was given. -/
def outline (h : Host) : Host :=
  { h with clipboard := h.clipboard.map fun _ => "", preview := h.preview.map fun _ => "" }

theorem exists_of_outline_eq {h h' : Host} (heq : h'.outline = h.outline) :
    ∃ clipboard preview, h' = { h with clipboard, preview } ∧
      clipboard.isSome = h.clipboard.isSome ∧ preview.isSome = h.preview.isSome := by
  obtain ⟨_, _, _, _, _, clipboard, preview, _, _, _⟩ := h
  obtain ⟨_, _, _, _, _, clipboard', preview', _, _, _⟩ := h'
  simp only [outline, mk.injEq] at heq
  obtain ⟨rfl, rfl, rfl, rfl, rfl, hclipboard, hpreview, rfl, rfl, rfl⟩ := heq
  refine ⟨clipboard', preview', rfl, ?_, ?_⟩
  · simpa using congrArg Option.isSome hclipboard
  · simpa using congrArg Option.isSome hpreview

end Host

namespace Desk

/-- Two desks with the same settings in memory that differ in code only. -/
structure Alike (desk desk' : Desk) : Prop where
  path_eq : desk.session.store.path = none
  session_eq : desk'.session = desk.session
  host_eq : desk'.host.outline = desk.host.outline
  files_eq : desk'.files.outline = desk.files.outline
  now_eq : desk'.now = desk.now

variable {desk desk' desk'' : Desk}

namespace Alike

theorem refl (hpath : desk.session.store.path = none) : desk.Alike desk :=
  ⟨hpath, rfl, rfl, rfl, rfl⟩

theorem trans (h : desk.Alike desk') (h' : desk'.Alike desk'') : desk.Alike desk'' :=
  ⟨h.path_eq, h'.session_eq.trans h.session_eq, h'.host_eq.trans h.host_eq,
    h'.files_eq.trans h.files_eq, h'.now_eq.trans h.now_eq⟩

/-- What a host is asked is answered from what it was given before. -/
theorem exists_host_eq (h : desk.Alike desk') :
    ∃ clipboard preview, desk'.host = { desk.host with clipboard, preview } := by
  obtain ⟨clipboard, preview, hhost, -, -⟩ := Host.exists_of_outline_eq h.host_eq
  exact ⟨clipboard, preview, hhost⟩

theorem onHost (h : desk.Alike desk') (f f' : Host → Host)
    (hf : (f' desk'.host).outline = (f desk.host).outline) :
    (desk.onHost f).Alike (desk'.onHost f') :=
  { h with host_eq := hf }

variable [Machine]

theorem currentConfig_eq (h : desk.Alike desk') (overrides : Object) :
    desk'.session.currentConfig desk'.files overrides =
      desk.session.currentConfig desk.files overrides := by
  rw [Session.currentConfig, Session.currentConfig, h.session_eq,
    Store.snapshot_inMemory h.path_eq, Store.snapshot_inMemory h.path_eq]

theorem generate_eq (h : desk.Alike desk') (text : String) (overrides : Object) :
    desk'.session.generate desk'.files text overrides =
      desk.session.generate desk.files text overrides := by
  rw [Session.generate, Session.generate, h.currentConfig_eq, h.session_eq]

end Alike

end Desk

namespace Command

/-- What two commands come to, if the results are alike and so are the desks after them. -/
structure RunsAlike {α β : Type} (free : Prop) (view : α → β)
    (run run' : Except Failure α × Desk) : Prop where
  result : ResultsAlike free view run.1 run'.1
  after : run.2.Alike run'.2

/-- Whether a command gives and does the same at desks that differ in code only. -/
def Overlooks {α : Type} (c : Command α) : Prop :=
  ∀ ⦃desk desk' : Desk⦄, desk.Alike desk' → RunsAlike False id (c.runOn desk) (c.runOn desk')

variable {α β γ δ : Type} {free : Prop} {view : α → γ} {view' : β → δ} {desk desk' : Desk}

theorem RunsAlike.bind {c c' : Command α} {f f' : α → Command β}
    (h : RunsAlike free view (c.runOn desk) (c'.runOn desk'))
    (hf : ∀ {a b : α} {next next' : Desk}, view b = view a → (free ∨ b = a) → next.Alike next' →
      RunsAlike free view' ((f a).runOn next) ((f' b).runOn next')) :
    RunsAlike free view' ((c >>= f).runOn desk) ((c' >>= f').runOn desk') := by
  rw [runOn_bind, runOn_bind]
  rcases hrun : c.runOn desk with ⟨result, next⟩
  rcases hrun' : c'.runOn desk' with ⟨result', next'⟩
  rw [hrun, hrun'] at h
  obtain ⟨hresult, hafter⟩ := h
  cases hresult with
  | ok hview hsame => exact hf hview hsame hafter
  | error hsame => exact ⟨.error hsame, hafter⟩

theorem Overlooks.runsAlike {c : Command α} (hc : Overlooks c) (halike : desk.Alike desk') :
    RunsAlike free view (c.runOn desk) (c.runOn desk') :=
  ⟨.of_eq ((hc halike).result.eq id), (hc halike).after⟩

theorem Overlooks.bind_runsAlike {c : Command α} {f f' : α → Command β} (hc : Overlooks c)
    (halike : desk.Alike desk') (hf : ∀ (a : α) {next next' : Desk}, next.Alike next' →
      RunsAlike free view' ((f a).runOn next) ((f' a).runOn next')) :
    RunsAlike free view' ((c >>= f).runOn desk) ((c >>= f').runOn desk') := by
  have hfirst : RunsAlike free id (c.runOn desk) (c.runOn desk') := hc.runsAlike halike
  refine hfirst.bind fun hview _ hnext => ?_
  rw [id, id] at hview
  subst hview
  exact hf _ hnext

theorem Overlooks.bind {c : Command α} {f : α → Command β} (hc : Overlooks c)
    (hf : ∀ a, Overlooks (f a)) : Overlooks (c >>= f) :=
  fun _ _ halike => hc.bind_runsAlike halike fun a _ _ hnext => hf a hnext

theorem overlooks_pure (a : α) : Overlooks (pure a) :=
  fun _ _ halike => ⟨.refl _, halike⟩

theorem overlooks_get_bind {f : Desk → Command β}
    (hf : ∀ {desk desk'}, desk.Alike desk' → f desk' = f desk) (hf' : ∀ desk, Overlooks (f desk)) :
    Overlooks (get >>= f) := by
  intro desk desk' halike
  rw [runOn_bind, runOn_bind, runOn_get, runOn_get]
  dsimp only
  rw [hf halike]
  exact hf' desk halike

theorem overlooks_notify (message : String) (options : Host.NotifyOptions) :
    Overlooks (notify message options) := by
  intro desk desk' halike
  rw [runOn_notify, runOn_notify]
  obtain ⟨_, _, hhost⟩ := halike.exists_host_eq
  refine ⟨.of_eq (by rw [hhost]; rfl), halike.onHost (·.notify message options)
    (·.notify message options) ?_⟩
  change desk'.host.outline.notify message options = desk.host.outline.notify message options
  rw [halike.host_eq]

section Steps

variable [Machine]

theorem overlooks_prompt (key : String) (default : Option String) :
    Overlooks (prompt key default) := by
  intro desk desk' halike
  obtain ⟨_, _, hhost⟩ := halike.exists_host_eq
  have hprompt : desk'.host.prompt key default = desk.host.prompt key default := by
    rw [hhost]
    rfl
  rw [runOn_prompt, runOn_prompt, hprompt]
  exact ⟨.refl _, halike⟩

theorem overlooks_currentConfig (overrides : Object) : Overlooks (currentConfig overrides) := by
  intro desk desk' halike
  rw [runOn_currentConfig, runOn_currentConfig, halike.currentConfig_eq]
  exact ⟨.refl _, halike⟩

theorem overlooks_generateCode (text : String) (overrides : Object) :
    Overlooks (generateCode text overrides) := by
  intro desk desk' halike
  rw [runOn_generateCode, runOn_generateCode, halike.generate_eq]
  exact ⟨.refl _, halike⟩

omit [Machine] in
theorem overlooks_storing
    {change : Store → FileTree → String → Except Failure Object × Store × FileTree}
    (hchange : ∀ {s : Store} (now : String), s.path = none →
      ∃ result memory, ∀ files, change s files now = (result, { s with memory }, files)) :
    Overlooks (storing change) := by
  intro desk desk' halike
  obtain ⟨result, memory, hstored⟩ := hchange desk.now halike.path_eq
  have hstored' := hstored desk'.files
  rw [← halike.session_eq, ← halike.now_eq] at hstored'
  rw [runOn_storing (hstored desk.files), runOn_storing hstored']
  refine ⟨.refl _, halike.path_eq, ?_, halike.host_eq, halike.files_eq, halike.now_eq⟩
  dsimp only [Desk.withStore]
  rw [halike.session_eq]

theorem overlooks_update (values : Object) :
    Overlooks (storing fun store files now => store.update files now values) :=
  overlooks_storing fun now hpath =>
    ⟨_, _, fun files => Store.update_inMemory hpath files now values⟩

theorem overlooks_initializeSettings : Overlooks initializeSettings := by
  refine overlooks_get_bind (fun halike => by rw [halike.session_eq]) fun desk => ?_
  exact overlooks_storing fun now hpath =>
    ⟨_, _, fun files => Store.run_inMemory hpath files now (.addMissing _)⟩

theorem overlooks_updateSettings (values : Object) : Overlooks (updateSettings values) := by
  rw [updateSettings]
  cases Session.changes values with
  | error e => exact fun _ _ halike => ⟨.refl _, halike⟩
  | ok changes =>
    cases changes with
    | nil => exact overlooks_currentConfig []
    | cons first rest =>
      change Overlooks (storing (fun store files now => store.update files now (first :: rest)) >>=
        fun _ => currentConfig [])
      exact (overlooks_update _).bind fun _ => overlooks_currentConfig []

theorem overlooks_ask (key : String) (value : Json) : Overlooks (ask key value) := by
  refine overlooks_get_bind (fun halike => ?_) fun desk => ?_
  · obtain ⟨_, _, hhost⟩ := halike.exists_host_eq
    rw [hhost]
  · split
    · exact overlooks_pure _
    · exact (overlooks_prompt key none).bind fun _ => overlooks_pure _

theorem overlooks_configure : Overlooks configure := by
  rw [configure_eq]
  refine (overlooks_currentConfig []).bind fun config => ?_
  refine (overlooks_ask _ _).bind fun packageName => ?_
  cases packageName with
  | none => exact overlooks_pure _
  | some packageName =>
    refine (overlooks_ask _ _).bind fun className => ?_
    cases className with
    | none => exact overlooks_pure _
    | some className =>
      refine (overlooks_ask _ _).bind fun baseTestClass => ?_
      refine (overlooks_update _).bind fun _ => ?_
      refine (overlooks_notify _ _).bind fun _ => ?_
      exact (overlooks_currentConfig []).bind fun _ => overlooks_pure _

end Steps

end Command

/-! ### Writing code -/

/-- Two results that are equal, or that are free to differ in which characters cannot be written. -/
def WrittenAlike {α : Type} (free : Prop) (result result' : Except Failure α) : Prop :=
  result' = result ∨
    free ∧ ∃ u u', result = .error (.unencodable u) ∧ result' = .error (.unencodable u')

namespace WrittenAlike

variable {α β : Type} {free : Prop} {result result' : Except Failure α}

theorem map (h : WrittenAlike free result result') (f : α → β) :
    WrittenAlike free (result.map f) (result'.map f) := by
  rcases h with rfl | ⟨hfree, u, u', rfl, rfl⟩
  · exact .inl rfl
  · exact .inr ⟨hfree, u, u', rfl, rfl⟩

theorem resultsAlike (h : WrittenAlike free result result') (view : α → β) :
    ResultsAlike free view result result' := by
  rcases h with rfl | ⟨hfree, u, u', rfl, rfl⟩
  · exact .refl _
  · exact .error (.inl hfree)

end WrittenAlike

section Writing

variable [Machine]

/-- Two texts of which one can be written to a file if the other can, and that are equal if they are
not free to differ. -/
structure Exchangeable (free : Prop) (text text' : String) : Prop where
  isEncodable_iff : Text.isEncodable text' ↔ Text.isEncodable text
  same : free ∨ text' = text

variable {free : Prop} {t t' : FileTree} {h h' : Host} {text text' : String}

theorem writtenAlike_writeText (htext : Exchangeable free text text')
    (htree : t'.outline = t.outline) (p : Path) :
    WrittenAlike free (t.writeText p text).1 (t'.writeText p text').1 := by
  have hplace : t'.filePlace p = t.filePlace p := by
    rw [← FileTree.filePlace_outline, htree, FileTree.filePlace_outline]
  have hencodable : Text.Charset.utf8.unencodable? text' = none ↔
      Text.Charset.utf8.unencodable? text = none := by
    rw [Text.Charset.unencodable?_eq_none_iff, Text.Charset.unencodable?_eq_none_iff]
    exact htext.isEncodable_iff
  rw [FileTree.writeText, FileTree.writeText, hplace]
  cases t.filePlace p with
  | error e => exact .inl rfl
  | ok place =>
    cases hfault : Text.Charset.utf8.unencodable? text with
    | none => exact .inl (by rw [hencodable.mpr hfault])
    | some u =>
      cases hfault' : Text.Charset.utf8.unencodable? text' with
      | none => cases hfault.symm.trans (hencodable.mp hfault')
      | some u' =>
        rcases htext.same with hfree | rfl
        · exact .inr ⟨hfree, u, u', rfl, rfl⟩
        · obtain rfl := Option.some.inj (hfault.symm.trans hfault')
          exact .inl rfl

theorem outline_writeText_congr (htree : t'.outline = t.outline) (p : Path) (text text' : String) :
    (t'.writeText p text').2.outline = (t.writeText p text).2.outline := by
  rw [FileTree.outline_writeText, FileTree.outline_writeText, htree]

theorem ensureDirectories_congr (htree : t'.outline = t.outline) (p : Path) :
    (t'.ensureDirectories p).1 = (t.ensureDirectories p).1 ∧
      (t'.ensureDirectories p).2.outline = (t.ensureDirectories p).2.outline := by
  have houtline := FileTree.ensureWithin_outline t p (Machine.newDirectories + 1)
  have houtline' := FileTree.ensureWithin_outline t' p (Machine.newDirectories + 1)
  rw [htree, houtline] at houtline'
  obtain ⟨hmade, hafter⟩ := Prod.mk.inj houtline'
  exact ⟨hmade.symm, hafter.symm⟩

theorem Workspace.write_congr (w : Workspace) (htext : Exchangeable free text text')
    (htree : t'.outline = t.outline) (path : String) :
    WrittenAlike free (w.write t path text true).1 (w.write t' path text' true).1 ∧
      (w.write t' path text' true).2.outline = (w.write t path text true).2.outline := by
  rw [write, write]
  cases w.writablePlace path with
  | error e => exact ⟨.inl rfl, htree⟩
  | ok place =>
    dsimp only
    rw [if_pos rfl, if_pos rfl]
    have hensure := ensureDirectories_congr htree place.toPath.parent
    generalize t.ensureDirectories place.toPath.parent = run at hensure ⊢
    generalize t'.ensureDirectories place.toPath.parent = run' at hensure ⊢
    obtain ⟨made, above⟩ := run
    obtain ⟨made', above'⟩ := run'
    obtain ⟨rfl, hafter⟩ : made' = made ∧ above'.outline = above.outline := hensure
    cases made' with
    | error e => exact ⟨.inl rfl, hafter⟩
    | ok made =>
      exact ⟨(writtenAlike_writeText htext hafter place.toPath).map _,
        outline_writeText_congr hafter place.toPath text text'⟩

theorem Host.writeFile_congr (htext : Exchangeable free text text') (hhost : h'.outline = h.outline)
    (htree : t'.outline = t.outline) (path : String) :
    WrittenAlike free (h.writeFile t path text).1 (h'.writeFile t' path text').1 ∧
      (h'.writeFile t' path text').2.1.outline = (h.writeFile t path text).2.1.outline ∧
      (h'.writeFile t' path text').2.2.outline = (h.writeFile t path text).2.2.outline := by
  have hrecord : ∀ file, (h'.record file).outline = (h.record file).outline := by
    intro file
    change h'.outline.record file = h.outline.record file
    rw [hhost]
  have hworkspace : h'.workspace = h.workspace := by
    obtain ⟨_, _, rfl, -, -⟩ := exists_of_outline_eq hhost
    rfl
  rw [writeFile, writeFile, hworkspace]
  cases h.workspace with
  | none => exact ⟨.inl rfl, hrecord _, htree⟩
  | some w =>
    have hwrite := w.write_congr htext htree path
    dsimp only
    generalize w.write t path text true = run at hwrite ⊢
    generalize w.write t' path text' true = run' at hwrite ⊢
    obtain ⟨written, after⟩ := run
    obtain ⟨written', after'⟩ := run'
    obtain ⟨rfl | ⟨hfree, u, u', rfl, rfl⟩, hafter⟩ : WrittenAlike free written written' ∧
      after'.outline = after.outline := hwrite
    · cases written' with
      | ok name => exact ⟨.inl rfl, hrecord _, hafter⟩
      | error e =>
        dsimp only
        cases e.refusesFile with
        | true => exact ⟨.inl rfl, hrecord _, hafter⟩
        | false => exact ⟨.inl rfl, hhost, hafter⟩
    · exact ⟨.inr ⟨hfree, u, u', rfl, rfl⟩, hhost, hafter⟩

namespace Command

variable {desk desk' : Desk}

theorem runsAlike_writeFile (htext : Exchangeable free text text') (halike : desk.Alike desk')
    (path : String) :
    RunsAlike free id ((writeFile path text).runOn desk) ((writeFile path text').runOn desk') := by
  obtain ⟨hresult, hhost, hfiles⟩ :=
    Host.writeFile_congr htext halike.host_eq halike.files_eq path
  rw [runOn_writeFile, runOn_writeFile]
  exact ⟨hresult.resultsAlike id,
    halike.path_eq, halike.session_eq, hhost, hfiles, halike.now_eq⟩

end Command

end Writing

end StepGlue
