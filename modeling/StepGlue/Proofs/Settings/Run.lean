import StepGlue.Proofs.Settings.Store

/-!
# Runs of several stores

Stores take turns, each with a whole operation. All that an operation on a file does can be told
from the section it is about: what it gives, and what the section holds after it. The rest of the
document stays, and the time is noted.
-/

namespace StepGlue.Store

open Json (Object)

/-- A whole operation on a store. -/
inductive Action where
  | update (values : Object)
  | addMissing (defaults : Object)
  | snapshot
  /-- Making a new store on the same file, and a snapshot of that. -/
  | reopen

/-- The members of `defaults` that a section lacks. -/
def missing (stored defaults : Object) : Object :=
  defaults.filter fun member => !stored.contains member.1

namespace Action

/-- The members that an operation may set. -/
def values : Action → Object
  | update values => values
  | addMissing defaults => defaults
  | snapshot | reopen => []

variable [Machine]

/-- What an operation gives and what it makes of a section, told by what setting members does. -/
def onSection (set : Object → Object → Except Failure Object × Object) (stored : Object) :
    Action → Except Failure Object × Object
  | update values => set values stored
  | addMissing defaults =>
    match copy stored with
    | .error e => (.error e, stored)
    | .ok current =>
      if (missing current defaults).isEmpty then (.ok current, stored)
      else set (missing current defaults) stored
  | snapshot | reopen => (copy stored, stored)

def run (a : Action) (s : Store) (t : FileTree) (now : String) :
    Except Failure Object × Store × FileTree :=
  match a with
  | update values => s.update t now values
  | addMissing defaults => s.addMissing t now defaults
  | snapshot => (s.snapshot t, s, t)
  | reopen =>
    match s.path with
    | none => (s.snapshot t, s, t)
    | some path =>
      match openFile t path s.sectionName with
      | (.error e, t) => (.error e, s, t)
      | (.ok s, t) => (s.snapshot t, s, t)

end Action

/-- An operation of one of several stores, and the time at which it is done. -/
structure Turn (ι : Type) where
  store : ι
  action : Action
  now : String

section Runs

variable [Machine] {ι : Type} [DecidableEq ι]

/-- What the stores get, one turn after the other. -/
def outcomes (stores : ι → Store) (t : FileTree) :
    List (Turn ι) → List (ι × Except Failure Object)
  | [] => []
  | turn :: turns =>
    match turn.action.run (stores turn.store) t turn.now with
    | (outcome, s, t) =>
      (turn.store, outcome) :: outcomes (Function.update stores turn.store s) t turns

theorem outcomes_cons (stores : ι → Store) (t : FileTree) (turn : Turn ι) (turns : List (Turn ι)) :
    outcomes stores t (turn :: turns) =
      (turn.store, (turn.action.run (stores turn.store) t turn.now).1) ::
        outcomes
          (Function.update stores turn.store (turn.action.run (stores turn.store) t turn.now).2.1)
          (turn.action.run (stores turn.store) t turn.now).2.2 turns :=
  rfl

end Runs

/-! ### Setting members in a file -/

section

variable [Machine]

/-- What setting members in a file gives and makes of the section. -/
def setInFile (values stored : Object) : Except Failure Object × Object :=
  if Within (Machine.limit Nesting.written) ((Json.obj values).height + 1) then
    if (Json.obj values).hasShortIntegers then (copy (stored.update values), stored.update values)
    else (.error (.integerTooLong none), stored)
  else (.error (.tooDeep .descending), stored)

/-- Whether all values that can be written into a section can be read back there. -/
def ReadsBack (values : Object) : Prop :=
  ∀ member ∈ values, Within (Machine.limit Nesting.written) (member.2.height + 2) →
    Within (Machine.limit Nesting.read) (member.2.depth + 2)

instance (values : Object) : Decidable (ReadsBack values) :=
  inferInstanceAs (Decidable (∀ member ∈ values,
    Within (Machine.limit Nesting.written) (member.2.height + 2) →
      Within (Machine.limit Nesting.read) (member.2.depth + 2)))

theorem ReadsBack.missing {defaults : Object} (h : ReadsBack defaults) (stored : Object) :
    ReadsBack (missing stored defaults) :=
  fun member hmem => h member (List.mem_of_mem_filter hmem)

/-- Whether a document is written whole and can be read then. -/
structure IsLasting (document : Object) : Prop extends IsStorable document where
  within_depth : Within (Machine.limit Nesting.read) (Json.obj document).depth

theorem isLasting_nil : IsLasting [] where
  toIsStorable := isStorable_nil
  within_depth := isRead_nil.within_depth

end

variable {s : Store} {document values : Object} {now : String} [Machine] {t : FileTree}
  {path : Path} {place : Location}

/-- Whether texts are such that a file can take what is set at some time. -/
structure IsClean (sectionName now : String) (values : Object) : Prop where
  sectionName_ne : sectionName ≠ timeMember
  isEncodable_sectionName : Text.isEncodable sectionName
  isEncodable_now : Text.isEncodable now
  wellFormed : (Json.obj values).WellFormed
  isEncodable : (Json.obj values).isEncodable

theorem IsClean.missing {sectionName : String} (h : IsClean sectionName now values)
    (stored : Object) : IsClean sectionName now (missing stored values) where
  sectionName_ne := h.sectionName_ne
  isEncodable_sectionName := h.isEncodable_sectionName
  isEncodable_now := h.isEncodable_now
  wellFormed := h.wellFormed.filter _
  isEncodable := Json.isEncodable_obj_iff.mpr fun member hmem =>
    Json.isEncodable_obj_iff.mp h.isEncodable member (List.mem_of_mem_filter hmem)

/-- A clean update leaves everything as it was or is written whole. -/
theorem update_cases_of_isClean (hpath : s.path = some path)
    (hdocument : s.document t = .ok document) (hfile : t.IsFilePath path place)
    (hencodable : (Json.obj document).isEncodable) (hclean : IsClean s.sectionName now values) :
    (∃ e, s.update t now values = (.error e, s, t)) ∨
    (IsStorable (s.written document now values) ∧
      s.update t now values = (copy ((s.sectionOf document).update values), s,
        t.put place (.file (.text (Json.obj (s.written document now values)).layout)))) := by
  have hwritten := isEncodable_written_iff hclean.sectionName_ne hclean.wellFormed.nodup
    hclean.isEncodable_sectionName hclean.isEncodable_now hencodable
  rcases update_cases hpath hdocument hfile hclean.wellFormed now with
    ⟨-, hupdate⟩ | ⟨-, -, hupdate⟩ | ⟨hbad, -⟩ | hstored
  · exact .inl ⟨_, hupdate⟩
  · exact .inl ⟨_, hupdate⟩
  · exact absurd (hwritten.mpr hclean.isEncodable) hbad
  · exact .inr hstored

theorem IsStorable.written (h : IsStorable document) (hclean : IsClean s.sectionName now values)
    (hlow : Within (Machine.limit Nesting.written) ((Json.obj values).height + 1))
    (hshort : (Json.obj values).hasShortIntegers) :
    IsStorable (s.written document now values) where
  isReadable :=
    ⟨wellFormed_written h.isReadable.wellFormed hclean.wellFormed,
      (hasShortIntegers_written_iff hclean.sectionName_ne hclean.wellFormed.nodup
        h.isReadable.hasShortIntegers now).mpr hshort⟩
  within_height := (within_written_iff hclean.sectionName_ne hclean.wellFormed.nodup le_rfl
    Machine.within_written_two h.within_height now).mpr hlow
  isEncodable := (isEncodable_written_iff hclean.sectionName_ne hclean.wellFormed.nodup
    hclean.isEncodable_sectionName hclean.isEncodable_now h.isEncodable).mpr hclean.isEncodable

/-- Values that can be written and read back leave a document that can be read. -/
theorem within_depth_written
    (hdepth : Within (Machine.limit Nesting.read) (Json.obj document).depth)
    (hclean : IsClean s.sectionName now values) (hreads : ReadsBack values)
    (hstorable : IsStorable (s.written document now values)) :
    Within (Machine.limit Nesting.read) (Json.obj (s.written document now values)).depth := by
  have hvalues := within_values_of_written hclean.sectionName_ne hclean.wellFormed.nodup
    hstorable.within_height Machine.within_written_two
  rw [Json.depth, within_written_iff hclean.sectionName_ne hclean.wellFormed.nodup (Nat.zero_le 1)
    Machine.within_read_two hdepth, Json.within_levels_obj_iff]
  refine ⟨Machine.within_read_two, fun member hmem => hreads member hmem ?_⟩
  exact (Json.within_levels_obj_iff.mp hvalues).2 member hmem

theorem IsLasting.written (h : IsLasting document) (hclean : IsClean s.sectionName now values)
    (hreads : ReadsBack values) (hstorable : IsStorable (s.written document now values)) :
    IsLasting (s.written document now values) where
  toIsStorable := hstorable
  within_depth := within_depth_written h.within_depth hclean hreads hstorable

/-! ### What an operation does to a document -/

/-- The result of an operation on a file that held `document`. -/
structure Effect (s : Store) (a : Action) (path : Path) (place : Location) (document : Object)
    (result : Except Failure Object × Store × FileTree) : Prop where
  outcome_eq : result.1 = (a.onSection setInFile (s.sectionOf document)).1
  path_eq : result.2.1.path = some path
  sectionName_eq : result.2.1.sectionName = s.sectionName
  isDirectory_parent : result.2.2.isDirectory path.parent = .ok true
  exists_document : ∃ after, Holds result.2.2 path place after ∧ IsLasting after ∧
    s.sectionOf after = (a.onSection setInFile (s.sectionOf document)).2 ∧
    ∀ other : Store, other.sectionName ≠ s.sectionName → other.sectionName ≠ timeMember →
      other.sectionOf after = other.sectionOf document

section Effects

variable (hpath : s.path = some path) (hholds : Holds t path place document)
  (hparent : t.isDirectory path.parent = .ok true) (hlasting : IsLasting document)
include hpath hholds hparent hlasting

theorem effect_of_unchanged {a : Action} {outcome : Except Failure Object}
    (ha : a.onSection setInFile (s.sectionOf document) = (outcome, s.sectionOf document)) :
    Effect s a path place document (outcome, s, t) where
  outcome_eq := by rw [ha]
  path_eq := hpath
  sectionName_eq := rfl
  isDirectory_parent := hparent
  exists_document := ⟨document, hholds, hlasting, by rw [ha], fun _ _ _ => rfl⟩

theorem effect_update (hclean : IsClean s.sectionName now values) (hreads : ReadsBack values) :
    Effect s (.update values) path place document (s.update t now values) := by
  have hdocument := hholds.document_eq hpath hlasting.within_depth
  have hheight := within_written_iff hclean.sectionName_ne hclean.wellFormed.nodup le_rfl
    Machine.within_written_two hlasting.within_height now
  have hshort := hasShortIntegers_written_iff hclean.sectionName_ne hclean.wellFormed.nodup
    hlasting.isReadable.hasShortIntegers now
  have hencodable := isEncodable_written_iff hclean.sectionName_ne hclean.wellFormed.nodup
    hclean.isEncodable_sectionName hclean.isEncodable_now hlasting.isEncodable
  rcases update_cases hpath hdocument hholds.isFilePath hclean.wellFormed now with
    ⟨htall, hupdate⟩ | ⟨hlow, hlong, hupdate⟩ | ⟨hbad, -⟩ | ⟨hwritten, hupdate⟩
  -- the two refusals leave the file alone, as `setInFile` leaves the section
  · rw [hupdate]
    refine effect_of_unchanged hpath hholds hparent hlasting ?_
    exact if_neg fun h => htall (hheight.mpr h)
  · rw [hupdate]
    refine effect_of_unchanged hpath hholds hparent hlasting ?_
    exact (if_pos (hheight.mp hlow)).trans (if_neg fun h => hlong (hshort.mpr h))
  · exact absurd (hencodable.mpr hclean.isEncodable) hbad
  · rw [hupdate]
    have hset : setInFile values (s.sectionOf document) =
        (copy ((s.sectionOf document).update values), (s.sectionOf document).update values) :=
      (if_pos (hheight.mp hwritten.within_height)).trans
        (if_pos (hshort.mp hwritten.isReadable.hasShortIntegers))
    exact
      { outcome_eq := by rw [Action.onSection, hset]
        path_eq := hpath
        sectionName_eq := rfl
        isDirectory_parent :=
          FileTree.isDirectory_put_file hholds.isFilePath.not_directory hparent
        exists_document := ⟨s.written document now values,
          holds_put_layout hholds.isFilePath hwritten.isReadable,
          hlasting.written hclean hreads hwritten,
          by rw [Action.onSection, hset, sectionOf_written hclean.sectionName_ne],
          fun other hother htime => sectionOf_written_of_ne hother htime⟩ }

end Effects

theorem Effect.of_onSection_eq {a b : Action}
    {result : Except Failure Object × Store × FileTree} (h : Effect s a path place document result)
    (hab : b.onSection setInFile (s.sectionOf document) =
      a.onSection setInFile (s.sectionOf document)) : Effect s b path place document result where
  outcome_eq := hab ▸ h.outcome_eq
  path_eq := h.path_eq
  sectionName_eq := h.sectionName_eq
  isDirectory_parent := h.isDirectory_parent
  exists_document := hab ▸ h.exists_document

theorem addMissing_eq (s : Store) (t : FileTree) (now : String) (defaults : Object) :
    s.addMissing t now defaults =
      match s.snapshot t with
      | .error e => (.error e, s, t)
      | .ok current =>
        if (missing current defaults).isEmpty then (.ok current, s, t)
        else s.update t now (missing current defaults) :=
  rfl

section Operations

variable (hpath : s.path = some path) (hholds : Holds t path place document)
  (hparent : t.isDirectory path.parent = .ok true) (hlasting : IsLasting document)
include hpath hholds hparent hlasting

theorem effect_addMissing (hclean : IsClean s.sectionName now values) (hreads : ReadsBack values) :
    Effect s (.addMissing values) path place document (s.addMissing t now values) := by
  rw [addMissing_eq, snapshot_eq (hholds.document_eq hpath hlasting.within_depth)]
  cases hcopy : copy (s.sectionOf document) with
  | error e =>
    exact effect_of_unchanged hpath hholds hparent hlasting (by rw [Action.onSection, hcopy])
  | ok current =>
    obtain rfl := eq_of_copy_eq_ok hcopy
    by_cases hempty : (missing (s.sectionOf document) values).isEmpty
    · dsimp only
      rw [if_pos hempty]
      refine effect_of_unchanged hpath hholds hparent hlasting ?_
      rw [Action.onSection, hcopy]
      exact if_pos hempty
    · dsimp only
      rw [if_neg hempty]
      refine (effect_update hpath hholds hparent hlasting (hclean.missing _)
        (hreads.missing _)).of_onSection_eq ?_
      simp only [Action.onSection, hcopy]
      exact if_neg hempty

theorem effect_run {a : Action} (hclean : IsClean s.sectionName now a.values)
    (hreads : ReadsBack a.values) : Effect s a path place document (a.run s t now) := by
  have hdocument := hholds.document_eq hpath hlasting.within_depth
  cases a with
  | update values => exact effect_update hpath hholds hparent hlasting hclean hreads
  | addMissing defaults => exact effect_addMissing hpath hholds hparent hlasting hclean hreads
  | snapshot =>
    rw [Action.run, snapshot_eq hdocument]
    exact effect_of_unchanged hpath hholds hparent hlasting rfl
  | reopen =>
    simp only [Action.run, hpath, openFile, FileTree.ensureDirectories_of_isDirectory hparent,
      Except.map]
    rw [snapshot_eq (hholds.document_eq rfl hlasting.within_depth)]
    exact
      { outcome_eq := rfl
        path_eq := rfl
        sectionName_eq := rfl
        isDirectory_parent := hparent
        exists_document := ⟨document, hholds, hlasting, rfl, fun _ _ _ => rfl⟩ }

end Operations

/-! ### Families of stores -/

/-- Stores on one file, each with its section. -/
structure OnFile {ι : Type} (stores : ι → Store) (path : Path) (names : ι → String) : Prop where
  path_eq : ∀ i, (stores i).path = some path
  sectionName_eq : ∀ i, (stores i).sectionName = names i

/-- The stores are on the file still when one of them has taken a turn. -/
theorem OnFile.after_turn {ι : Type} [DecidableEq ι] {stores : ι → Store} {names : ι → String}
    (h : OnFile stores path names) {j : ι} {a : Action}
    {result : Except Failure Object × Store × FileTree}
    (heffect : Effect (stores j) a path place document result) :
    OnFile (Function.update stores j result.2.1) path names where
  path_eq := fun i => by
    by_cases hi : i = j
    · rw [hi, Function.update_self]
      exact heffect.path_eq
    · rw [Function.update_of_ne hi]
      exact h.path_eq i
  sectionName_eq := fun i => by
    by_cases hi : i = j
    · rw [hi, Function.update_self]
      exact heffect.sectionName_eq.trans (h.sectionName_eq j)
    · rw [Function.update_of_ne hi]
      exact h.sectionName_eq i

end StepGlue.Store
