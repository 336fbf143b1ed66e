import StepGlue.Proofs.Settings.Run

/-!
# Stores on a file behave as one store in memory

Both kinds of store set members of a section, but a file refuses values that are too high to be
written and memory refuses those that are too high to be copied. Values between the two heights are
written to a file before the copy of the section fails, so that nothing can be read afterwards;
without such values no difference shows.
-/

namespace StepGlue.Store

open Json (Object)

variable [Machine]

/-- What setting members in memory gives and makes of the section. -/
def setInMemory (values stored : Object) : Except Failure Object × Object :=
  match copy (stored.update values) with
  | .error e => (.error e, stored)
  | .ok updated => (.ok updated, updated)

/-- Whether all values that can be written into a section can be copied with it. -/
def AvoidsGap (values : Object) : Prop :=
  ∀ member ∈ values, Within (Machine.limit Nesting.written) (member.2.height + 2) →
    Within (Machine.limit Nesting.copied) (member.2.height + 1)

instance (values : Object) : Decidable (AvoidsGap values) :=
  inferInstanceAs (Decidable (∀ member ∈ values,
    Within (Machine.limit Nesting.written) (member.2.height + 2) →
      Within (Machine.limit Nesting.copied) (member.2.height + 1)))

theorem AvoidsGap.missing {defaults : Object} (h : AvoidsGap defaults) (stored : Object) :
    AvoidsGap (missing stored defaults) :=
  fun member hmem => h member (List.mem_of_mem_filter hmem)

theorem AvoidsGap.readsBack {values : Object} (h : AvoidsGap values) : ReadsBack values :=
  fun member hmem hwritten => (Machine.within_read_of_copied (h member hmem hwritten)).of_le
    (Nat.add_le_add_right member.2.depth_le_height 2)

/-! ### Setting members -/

section Setting

variable {stored values : Object}

/-- Values that are too high for a file are too high for memory. -/
theorem not_within_copied_update (hnodup : (PairList.keys values).Nodup)
    (hhigh : ¬Within (Machine.limit Nesting.written) ((Json.obj values).height + 1)) :
    ¬Within (Machine.limit Nesting.copied) (Json.obj (stored.update values)).height := by
  intro hlow
  have hupdated := (Json.within_levels_obj_iff.mp (Machine.within_written_of_copied hlow)).2
  exact hhigh (Json.within_levels_obj_iff.mpr ⟨Machine.within_written_two, fun member hmem =>
    hupdated member (PairList.mem_update_of_mem hnodup hmem)⟩)

/-- Values that a file takes leave the section low enough to be copied. -/
theorem within_copied_update
    (hlow : Within (Machine.limit Nesting.copied) (Json.obj stored).height)
    (havoids : AvoidsGap values)
    (hwritten : Within (Machine.limit Nesting.written) ((Json.obj values).height + 1)) :
    Within (Machine.limit Nesting.copied) (Json.obj (stored.update values)).height := by
  obtain ⟨hone, hstored⟩ := Json.within_obj_iff.mp hlow
  have hvalues := (Json.within_levels_obj_iff.mp hwritten).2
  exact Json.within_obj_iff.mpr ⟨hone, PairList.forall_mem_update hstored fun member hmem =>
    havoids member hmem (hvalues member hmem)⟩

theorem setInFile_eq_setInMemory
    (hlow : Within (Machine.limit Nesting.copied) (Json.obj stored).height)
    (hnodup : (PairList.keys values).Nodup) (hshort : (Json.obj values).hasShortIntegers)
    (havoids : AvoidsGap values) : setInFile values stored = setInMemory values stored := by
  by_cases hwritten : Within (Machine.limit Nesting.written) ((Json.obj values).height + 1)
  · rw [setInFile, if_pos hwritten, if_pos hshort, setInMemory,
      copy_of_within (within_copied_update hlow havoids hwritten)]
  · rw [setInFile, if_neg hwritten, setInMemory,
      copy_of_not_within (not_within_copied_update hnodup hwritten)]

theorem within_copied_setInMemory
    (hlow : Within (Machine.limit Nesting.copied) (Json.obj stored).height) :
    Within (Machine.limit Nesting.copied) (Json.obj (setInMemory values stored).2).height := by
  by_cases hupdated : Within (Machine.limit Nesting.copied) (Json.obj (stored.update values)).height
  · rw [setInMemory, copy_of_within hupdated]
    exact hupdated
  · rw [setInMemory, copy_of_not_within hupdated]
    exact hlow

end Setting

/-! ### Operations -/

section Operations

variable {stored : Object} {a : Action}

theorem onSection_setInFile
    (hlow : Within (Machine.limit Nesting.copied) (Json.obj stored).height)
    (hwell : (Json.obj a.values).WellFormed) (hshort : (Json.obj a.values).hasShortIntegers)
    (havoids : AvoidsGap a.values) :
    a.onSection setInFile stored = a.onSection setInMemory stored := by
  cases a with
  | update values => exact setInFile_eq_setInMemory hlow hwell.nodup hshort havoids
  | addMissing defaults =>
    have hmissing : (Json.obj (missing stored defaults)).hasShortIntegers :=
      Json.hasShortIntegers_obj_iff.mpr fun member hmem =>
        Json.hasShortIntegers_obj_iff.mp hshort member (List.mem_of_mem_filter hmem)
    have hnodup : (PairList.keys (missing stored defaults)).Nodup := (hwell.filter _).nodup
    have hset := setInFile_eq_setInMemory hlow hnodup hmissing (AvoidsGap.missing havoids stored)
    simp only [Action.onSection, copy_of_within hlow, hset]
  | snapshot => rfl
  | reopen => rfl

theorem within_copied_onSection
    (hlow : Within (Machine.limit Nesting.copied) (Json.obj stored).height) :
    Within (Machine.limit Nesting.copied) (Json.obj (a.onSection setInMemory stored).2).height := by
  cases a with
  | update values => exact within_copied_setInMemory hlow
  | addMissing defaults =>
    simp only [Action.onSection, copy_of_within hlow]
    split
    · exact hlow
    · exact within_copied_setInMemory hlow
  | snapshot => exact hlow
  | reopen => exact hlow

theorem update_inMemory {m : Store} (hpath : m.path = none) (t : FileTree) (now : String)
    (values : Object) : m.update t now values =
      ((setInMemory values m.memory).1,
        { m with memory := (setInMemory values m.memory).2 }, t) := by
  have hsection := m.sectionOf_inMemory
  have hset : m.sectionOf (Object.set [(m.sectionName, .obj m.memory)] m.sectionName
      (.obj (m.memory.update values))) = m.memory.update values := by
    simp [sectionOf, Object.get?, Object.set, PairList.set, PairList.get?]
  obtain ⟨_, sectionName, memory⟩ := m
  obtain rfl : _ = none := hpath
  simp only [update, document, save, hsection, hset, setInMemory]
  cases hcopy : copy (memory.update values) with
  | error e => rfl
  | ok updated => rfl

theorem snapshot_inMemory {m : Store} (hpath : m.path = none) (t : FileTree) :
    m.snapshot t = copy m.memory := by
  simp [snapshot, document, hpath, sectionOf_inMemory, bind, Except.bind]

theorem run_inMemory {m : Store} (hpath : m.path = none) (t : FileTree) (now : String)
    (a : Action) : a.run m t now =
      ((a.onSection setInMemory m.memory).1,
        { m with memory := (a.onSection setInMemory m.memory).2 }, t) := by
  cases a with
  | update values => exact update_inMemory hpath t now values
  | addMissing defaults =>
    rw [Action.run, addMissing_eq, snapshot_inMemory hpath]
    cases hcopy : copy m.memory with
    | error e => simp only [Action.onSection, hcopy]
    | ok current =>
      obtain rfl := eq_of_copy_eq_ok hcopy
      simp only [Action.onSection, hcopy]
      by_cases hempty : (missing m.memory defaults).isEmpty
      · simp only [if_pos hempty]
      · simp only [if_neg hempty]
        exact update_inMemory hpath t now _
  | snapshot => simp only [Action.run, snapshot_inMemory hpath, Action.onSection]
  | reopen =>
    have hsnapshot := snapshot_inMemory hpath t
    obtain ⟨_, sectionName, memory⟩ := m
    obtain rfl : _ = none := hpath
    simp only [Action.run, hsnapshot, Action.onSection]

end Operations

/-! ### Runs -/

omit [Machine] in
theorem update_const (m m' : Store) : Function.update (fun _ : Unit => m) () m' = fun _ => m' :=
  funext fun _ => Function.update_self _ _ _

section Runs

variable {ι : Type} [DecidableEq ι]

/-- The same turn, taken by the only store there is. -/
def Turn.alone (turn : Turn ι) : Turn Unit where
  store := ()
  action := turn.action
  now := turn.now

/-- Stores on one file and a store in memory that hold the same section. -/
structure Agree (stores : ι → Store) (t : FileTree) (path : Path) (place : Location) (m : Store) :
    Prop where
  onFile : OnFile stores path fun _ => m.sectionName
  memory_path : m.path = none
  memory_low : Within (Machine.limit Nesting.copied) (Json.obj m.memory).height
  isDirectory_parent : t.isDirectory path.parent = .ok true
  exists_document : ∃ document, Holds t path place document ∧ IsLasting document ∧
    m.sectionOf document = m.memory

/-- What a turn sets has a form that a file can take. -/
structure Turn.IsFair (turn : Turn ι) (sectionName : String) : Prop where
  isClean : IsClean sectionName turn.now turn.action.values
  hasShortIntegers : (Json.obj turn.action.values).hasShortIntegers

section Agree

variable {stores : ι → Store} {t : FileTree} {path : Path} {place : Location} {m : Store}

/-- After a turn on both sides both have given the same, and they still hold the same section. -/
theorem Agree.step (h : Agree stores t path place m) {turn : Turn ι}
    (hturn : turn.IsFair m.sectionName) (havoids : AvoidsGap turn.action.values) (t' : FileTree) :
    (turn.action.run (stores turn.store) t turn.now).1 = (turn.action.run m t' turn.now).1 ∧
      Agree (Function.update stores turn.store (turn.action.run (stores turn.store) t turn.now).2.1)
        (turn.action.run (stores turn.store) t turn.now).2.2 path place
        (turn.action.run m t' turn.now).2.1 := by
  obtain ⟨document, hholds, hlasting, hsection⟩ := h.exists_document
  have hname := h.onFile.sectionName_eq turn.store
  have hstored : (stores turn.store).sectionOf document = m.memory :=
    (sectionOf_congr hname document).trans hsection
  have heffect := effect_run (h.onFile.path_eq turn.store) hholds h.isDirectory_parent hlasting
    (hname ▸ hturn.isClean) havoids.readsBack
  have hset := onSection_setInFile h.memory_low hturn.isClean.wellFormed hturn.hasShortIntegers
    havoids
  obtain ⟨after, hafter, hafterLasting, hafterSection, -⟩ := heffect.exists_document
  rw [hstored, hset] at hafterSection
  rw [run_inMemory h.memory_path]
  constructor
  · rw [heffect.outcome_eq, hstored, hset]
  · exact
      { onFile := h.onFile.after_turn heffect
        memory_path := h.memory_path
        memory_low := within_copied_onSection h.memory_low
        isDirectory_parent := heffect.isDirectory_parent
        exists_document :=
          ⟨after, hafter, hafterLasting, (sectionOf_congr hname.symm after).trans hafterSection⟩ }

theorem Agree.outcomes_eq (h : Agree stores t path place m) {turns : List (Turn ι)}
    (hturns : ∀ turn ∈ turns, turn.IsFair m.sectionName)
    (havoids : ∀ turn ∈ turns, AvoidsGap turn.action.values) (t' : FileTree) :
    (outcomes stores t turns).map Prod.snd =
      (outcomes (fun _ => m) t' (turns.map Turn.alone)).map Prod.snd := by
  -- `Agree` is what every turn preserves; a turn in memory leaves the files alone, so `t'` is free
  induction turns generalizing stores t m t' with
  | nil => rfl
  | cons turn turns ih =>
    obtain ⟨hturn, hrest⟩ := List.forall_mem_cons.mp hturns
    obtain ⟨hgap, hgaps⟩ := List.forall_mem_cons.mp havoids
    obtain ⟨houtcome, hagree⟩ := h.step hturn hgap t'
    have hname : (turn.action.run m t' turn.now).2.1.sectionName = m.sectionName := by
      rw [run_inMemory h.memory_path]
    rw [List.map_cons, outcomes_cons, outcomes_cons, List.map_cons, List.map_cons]
    dsimp only [Turn.alone]
    rw [update_const, houtcome, ih hagree (hname ▸ hrest) hgaps]

end Agree

/-- A value in the gap shows the difference at once: the update fails on both sides, but only the
file holds the value after that, and no snapshot of it can be taken. -/
theorem outcomes_of_gap {s : Store} {t : FileTree} {path : Path} {place : Location}
    (hpath : s.path = some path) (hfile : t.IsFilePath path place)
    (habsent : t.lookup? place = none) {name now : String} {v : Json}
    (hclean : IsClean s.sectionName now [(name, v)]) (hshort : v.hasShortIntegers)
    (hwritten : Within (Machine.limit Nesting.written) (v.height + 2))
    (hhigh : ¬Within (Machine.limit Nesting.copied) (v.height + 1)) :
    (∃ activity, outcomes (fun _ => s) t [⟨(), .update [(name, v)], now⟩, ⟨(), .snapshot, now⟩] =
        [((), .error (.tooDeep .descending)), ((), .error (.tooDeep activity))]) ∧
      outcomes (fun _ => inMemory s.sectionName) t
          [⟨(), .update [(name, v)], now⟩, ⟨(), .snapshot, now⟩] =
        [((), .error (.tooDeep .descending)), ((), .ok [])] := by
  have hupdated : Object.update [] [(name, v)] = [(name, v)] := rfl
  have hcopy : copy [(name, v)] = .error (.tooDeep .descending) :=
    copy_of_not_within fun h => hhigh ((Json.within_obj_iff.mp h).2 (name, v) List.mem_cons_self)
  constructor
  · have hdocument := (holds_of_absent hfile habsent).document_eq hpath isRead_nil.within_depth
    have hstorable : IsStorable (s.written [] now [(name, v)]) := isStorable_nil.written hclean
      (Json.within_levels_obj_iff.mpr
        ⟨Machine.within_written_two, List.forall_mem_singleton.mpr hwritten⟩)
      (Json.hasShortIntegers_obj_iff.mpr (List.forall_mem_singleton.mpr hshort))
    have hupdate := update_of_isStorable hpath hdocument hfile hstorable
    have hsection : s.sectionOf (s.written [] now [(name, v)]) = [(name, v)] :=
      (sectionOf_written hclean.sectionName_ne).trans hupdated
    have hholds := holds_put_layout hfile hstorable.isReadable
    rw [outcomes_cons, outcomes_cons, update_const]
    simp only [Action.run, hupdate, show s.sectionOf [] = [] from rfl, hupdated, hcopy, outcomes]
    -- the file cannot be read, or its section cannot be copied
    rcases hholds.document_cases hpath with ⟨-, hread⟩ | ⟨-, container, hfails⟩
    · exact ⟨.descending, by rw [snapshot_eq hread, hsection, hcopy]⟩
    · exact ⟨.reading container, by rw [snapshot, hfails]; rfl⟩
  · rw [outcomes_cons, outcomes_cons, update_const]
    dsimp only
    rw [run_inMemory rfl, run_inMemory rfl]
    simp only [Action.onSection, setInMemory, inMemory, hupdated, hcopy, outcomes]
    rw [copy_of_within (Machine.within_copied_two.of_le (by decide))]

/-- **A file is as good as memory.** Stores on one file, whatever turns they take, together give
what one store in memory gives, if all that is laid out is read back, or else if no value is in the
gap between what memory copies and what a file takes. -/
theorem outcomes_eq_inMemory {stores : ι → Store} {t : FileTree} {path : Path} {place : Location}
    {sectionName : String} (hstores : OnFile stores path fun _ => sectionName)
    (hfile : t.IsFilePath path place) (hparent : t.isDirectory path.parent = .ok true)
    (habsent : t.lookup? place = none) {turns : List (Turn ι)}
    (hturns : ∀ turn ∈ turns, turn.IsFair sectionName)
    (hreads : (∀ v : Json, v.IsReadable → Json.read v.layout = .ok v) ∨
      ∀ turn ∈ turns, AvoidsGap turn.action.values) :
    (outcomes stores t turns).map Prod.snd =
      (outcomes (fun _ => inMemory sectionName) t (turns.map Turn.alone)).map Prod.snd := by
  have hagree : Agree stores t path place (inMemory sectionName) :=
    { onFile := hstores
      memory_path := rfl
      memory_low := Machine.within_copied_two.of_le (Nat.le_succ 1)
      isDirectory_parent := hparent
      exists_document := ⟨[], holds_of_absent hfile habsent, isLasting_nil, rfl⟩ }
  refine hagree.outcomes_eq hturns ?_ t
  rcases hreads with hinverts | havoids
  · have hnone := Json.eq_none_of_readWithin_layout hinverts
    exact fun _ _ _ _ _ => Machine.within_of_limit_eq_none hnone _ _
  · exact havoids

end Runs

end StepGlue.Store

/-! ### Two handles -/

namespace StepGlue.Store

attribute [local instance] Machine.plain

theorem outcomes_of_two_handles :
    (outcomes (fun _ : Bool => onSettingsFile) .empty
        [ ⟨false, .update [("a", .int 1)], "t"⟩,
          ⟨true, .addMissing [("a", .int 2), ("b", .str "x")], "u"⟩,
          ⟨false, .reopen, "v"⟩ ]).map Prod.snd =
      [ .ok [("a", .int 1)], .ok [("a", .int 1), ("b", .str "x")],
        .ok [("a", .int 1), ("b", .str "x")] ] := by
  have hfirst : (Json.obj [("a", .int 1)]).WellFormed :=
    .obj (by decide) (List.forall_mem_singleton.mpr (.int 1))
  have hsecond : (Json.obj [("a", .int 2), ("b", .str "x")]).WellFormed :=
    .obj (by decide) (List.forall_mem_cons.mpr ⟨.int 2, List.forall_mem_singleton.mpr (.str "x")⟩)
  have hstores : OnFile (fun _ : Bool => onSettingsFile) FileTree.settingsPath
      fun _ => defaultSection :=
    ⟨fun _ => rfl, fun _ => rfl⟩
  refine (outcomes_eq_inMemory hstores FileTree.isFilePath_empty FileTree.isDirectory_empty rfl
    ?_ (.inl fun v hv => Json.readWithin_layout hv (within_none _))).trans rfl
  refine List.forall_mem_cons.mpr
    ⟨?_, List.forall_mem_cons.mpr ⟨?_, List.forall_mem_singleton.mpr ?_⟩⟩
  · exact ⟨⟨by decide, by decide, by decide, hfirst, by decide⟩, by decide⟩
  · exact ⟨⟨by decide, by decide, by decide, hsecond, by decide⟩, by decide⟩
  · exact ⟨⟨by decide, by decide, by decide, .obj List.nodup_nil nofun, rfl⟩, rfl⟩

end StepGlue.Store
