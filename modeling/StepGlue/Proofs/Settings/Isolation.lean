import StepGlue.Proofs.Settings.Run

/-!
# Sections keep out of each other's way

An operation on one section changes that section and the time and nothing else, as long as no text
is without a form in UTF-8. So stores with different sections on one file do not notice each other.
-/

namespace StepGlue.Store

open Json (Object)

variable {s : Store} {document values : Object} {now : String} [Machine] {t : FileTree}
  {path : Path} {place : Location}

/-! ### One operation -/

/-- The file after an operation that may set some members of the section: all other members of the
document have kept their values and places, and so have all other members of the section. -/
structure Keeps (s : Store) (values : Object) (path : Path) (place : Location) (document : Object)
    (t' : FileTree) : Prop where
  exists_document : ∃ after, Holds t' path place after ∧
    PairList.DiffersAt (fun name => name = s.sectionName ∨ name = timeMember) document after ∧
    PairList.DiffersAt (fun name => name ∈ PairList.keys values) (s.sectionOf document)
      (s.sectionOf after)

theorem keeps_of_holds (values : Object) (hholds : Holds t path place document) :
    Keeps s values path place document t :=
  ⟨document, hholds, .refl _ _, .refl _ _⟩

section Operations

variable (hpath : s.path = some path) (hdocument : s.document t = .ok document)
  (hfile : t.IsFilePath path place) (hencodable : (Json.obj document).isEncodable)
include hpath hdocument hfile hencodable

theorem keeps_update (hclean : IsClean s.sectionName now values) :
    Keeps s values path place document (s.update t now values).2.2 := by
  rcases update_cases_of_isClean hpath hdocument hfile hencodable hclean with
    ⟨e, hupdate⟩ | ⟨hstorable, hupdate⟩
  · rw [hupdate]
    exact keeps_of_holds values (holds_of_document hfile hpath hdocument)
  · rw [hupdate]
    refine ⟨_, holds_put_layout hfile hstorable.isReadable,
      differsAt_written s document now values, ?_⟩
    rw [sectionOf_written hclean.sectionName_ne]
    exact PairList.DiffersAt.update (fun _ hname => hname) _

theorem keeps_addMissing (hclean : IsClean s.sectionName now values) :
    Keeps s values path place document (s.addMissing t now values).2.2 := by
  have hholds := holds_of_document hfile hpath hdocument
  rw [addMissing_eq, snapshot_eq hdocument]
  cases hcopy : copy (s.sectionOf document) with
  | error e => exact keeps_of_holds values hholds
  | ok current =>
    dsimp only
    split
    · exact keeps_of_holds values hholds
    · obtain ⟨after, hafter, hdocument, hsection⟩ :=
        keeps_update hpath hdocument hfile hencodable (hclean.missing current)
      refine ⟨after, hafter, hdocument, hsection.mono fun name hname => ?_⟩
      exact (List.filter_sublist.map Prod.fst).subset hname

theorem keeps_run {a : Action} (hparent : t.isDirectory path.parent = .ok true)
    (hclean : IsClean s.sectionName now a.values) :
    Keeps s a.values path place document (a.run s t now).2.2 := by
  have hholds := holds_of_document hfile hpath hdocument
  cases a with
  | update values => exact keeps_update hpath hdocument hfile hencodable hclean
  | addMissing defaults => exact keeps_addMissing hpath hdocument hfile hencodable hclean
  | snapshot => exact keeps_of_holds _ hholds
  | reopen =>
    simp only [Action.run, hpath, openFile, FileTree.ensureDirectories_of_isDirectory hparent,
      Except.map]
    exact keeps_of_holds _ hholds

end Operations

/-! ### Runs -/

variable {ι : Type} [DecidableEq ι]

/-- Two files in which one store has the same section, each with the stores that are on it. -/
structure Mirrors (i : ι) (path : Path) (place : Location) (names : ι → String)
    (stores others : ι → Store) (t t' : FileTree) : Prop where
  onFile : OnFile stores path names
  onOther : OnFile others path names
  isDirectory_parent : t.isDirectory path.parent = .ok true
  isDirectory_other : t'.isDirectory path.parent = .ok true
  exists_documents : ∃ document other, Holds t path place document ∧ IsLasting document ∧
    Holds t' path place other ∧ IsLasting other ∧
    (stores i).sectionOf document = (stores i).sectionOf other

section Mirrors

variable {i : ι} {names : ι → String} {stores others : ι → Store} {t' : FileTree}

/-- A turn of another store on one of the files leaves the section as it is. -/
theorem Mirrors.step_other (h : Mirrors i path place names stores others t t')
    (hapart : Function.Injective names) {turn : Turn ι} (hi : turn.store ≠ i)
    (htime : names i ≠ timeMember)
    (hclean : IsClean (names turn.store) turn.now turn.action.values)
    (hreads : ReadsBack turn.action.values) :
    Mirrors i path place names
      (Function.update stores turn.store (turn.action.run (stores turn.store) t turn.now).2.1)
      others
      (turn.action.run (stores turn.store) t turn.now).2.2 t' := by
  obtain ⟨document, other, hholds, hlasting, hother, hotherLasting, hsection⟩ := h.exists_documents
  have hname := h.onFile.sectionName_eq
  have heffect := effect_run (h.onFile.path_eq turn.store) hholds h.isDirectory_parent hlasting
    ((hname turn.store).symm ▸ hclean) hreads
  obtain ⟨after, hafter, hafterLasting, -, hframe⟩ := heffect.exists_document
  refine ⟨h.onFile.after_turn heffect, h.onOther, heffect.isDirectory_parent,
    h.isDirectory_other, after, other, hafter, hafterLasting, hother,
    hotherLasting, ?_⟩
  rw [Function.update_of_ne hi.symm, ← hsection]
  refine hframe (stores i) ?_ ?_
  · rw [hname, hname]
    exact fun heq => hi (hapart heq).symm
  · rw [hname]
    exact htime

/-- A turn of the store on both files gives the same, and leaves the same section. -/
theorem Mirrors.step_self (h : Mirrors i path place names stores others t t')
    {a : Action} {now : String} (hclean : IsClean (names i) now a.values)
    (hreads : ReadsBack a.values) :
    (a.run (stores i) t now).1 = (a.run (others i) t' now).1 ∧
      Mirrors i path place names (Function.update stores i (a.run (stores i) t now).2.1)
        (Function.update others i (a.run (others i) t' now).2.1) (a.run (stores i) t now).2.2
        (a.run (others i) t' now).2.2 := by
  obtain ⟨document, other, hholds, hlasting, hother, hotherLasting, hsection⟩ := h.exists_documents
  have hname := h.onFile.sectionName_eq i
  have hnames : (others i).sectionName = (stores i).sectionName :=
    (h.onOther.sectionName_eq i).trans hname.symm
  have hleft : IsClean (stores i).sectionName now a.values := hname.symm ▸ hclean
  have hright : IsClean (others i).sectionName now a.values :=
    (h.onOther.sectionName_eq i).symm ▸ hclean
  have heffect := effect_run (h.onFile.path_eq i) hholds h.isDirectory_parent hlasting hleft hreads
  have heffect' := effect_run (h.onOther.path_eq i) hother h.isDirectory_other hotherLasting hright
    hreads
  have hsections : (others i).sectionOf other = (stores i).sectionOf document :=
    (sectionOf_congr hnames other).trans hsection.symm
  obtain ⟨after, hafter, hafterLasting, hafterSection, -⟩ := heffect.exists_document
  obtain ⟨after', hafter', hafterLasting', hafterSection', -⟩ := heffect'.exists_document
  refine ⟨?_, h.onFile.after_turn heffect, h.onOther.after_turn heffect',
    heffect.isDirectory_parent, heffect'.isDirectory_parent, after, after', hafter,
    hafterLasting, hafter', hafterLasting', ?_⟩
  · rw [heffect.outcome_eq, heffect'.outcome_eq, hsections]
  · rw [Function.update_self, sectionOf_congr heffect.sectionName_eq,
      sectionOf_congr heffect.sectionName_eq, hafterSection, ← hsections, ← hafterSection']
    exact sectionOf_congr hnames after'

theorem Mirrors.outcomes_eq (h : Mirrors i path place names stores others t t')
    (hapart : Function.Injective names) (htime : names i ≠ timeMember) {turns : List (Turn ι)}
    (hclean : ∀ turn ∈ turns, IsClean (names turn.store) turn.now turn.action.values)
    (hreads : ∀ turn ∈ turns, ReadsBack turn.action.values) :
    (outcomes stores t turns).filter (·.1 = i) =
      outcomes others t' (turns.filter (·.store = i)) := by
  -- a turn of the store moves both files, a turn of another only the first
  induction turns generalizing stores others t t' with
  | nil => rfl
  | cons turn turns ih =>
    obtain ⟨hturn, hrest⟩ := List.forall_mem_cons.mp hclean
    obtain ⟨hback, hbacks⟩ := List.forall_mem_cons.mp hreads
    rw [outcomes_cons]
    by_cases hi : turn.store = i
    · subst hi
      obtain ⟨houtcome, hmirrors⟩ := h.step_self hturn hback
      rw [List.filter_cons_of_pos (by simp), List.filter_cons_of_pos (by simp), outcomes_cons,
        houtcome, ih hmirrors hrest hbacks]
    · rw [List.filter_cons_of_neg (by simpa using hi), List.filter_cons_of_neg (by simpa using hi)]
      exact ih (h.step_other hapart hi htime hturn hback) hrest hbacks

end Mirrors

/-- **Sections are apart.** In a file that holds an object all texts of which have a form in UTF-8,
an operation on one section keeps everything else, and any turns of stores with different sections
give each store what its turns alone would have given it, as long as what is written can be read. -/
theorem sections_are_apart {names : ι → String} {stores : ι → Store}
    (hstores : OnFile stores path names) (hapart : Function.Injective names)
    (htime : ∀ i, names i ≠ timeMember) (hfile : t.IsFilePath path place)
    (hparent : t.isDirectory path.parent = .ok true) {text : String}
    (htext : t.lookup? place = some (.file (.text text)))
    (hread : Json.read text = .ok (.obj document)) (hencodable : (Json.obj document).isEncodable) :
    (∀ (i : ι) (a : Action) (now : String), IsClean (names i) now a.values →
      Keeps (stores i) a.values path place document (a.run (stores i) t now).2.2) ∧
    (Within (Machine.limit Nesting.written) (Json.obj document).height → ∀ turns : List (Turn ι),
      (∀ turn ∈ turns, IsClean (names turn.store) turn.now turn.action.values) →
      (∀ turn ∈ turns, ReadsBack turn.action.values) →
      ∀ i, (outcomes stores t turns).filter (·.1 = i) =
        outcomes stores t (turns.filter (·.store = i))) := by
  have hobject : objectOfText text = .ok document := by rw [objectOfText, hread]
  constructor
  · intro i a now hclean
    have hpath := hstores.path_eq i
    exact keeps_run hpath ((document_of_text hpath hfile htext).trans hobject) hfile hencodable
      hparent ((hstores.sectionName_eq i).symm ▸ hclean)
  · intro hheight turns hclean hreads i
    have hholds := holds_of_text hfile htext hobject
    have hlasting : IsLasting document :=
      ⟨⟨hholds.isReadable, hheight, hencodable⟩, (isRead_of_objectOfText hobject).within_depth⟩
    have hmirrors : Mirrors i path place names stores stores t t :=
      ⟨hstores, hstores, hparent, hparent, document, document, hholds, hlasting, hholds, hlasting,
        rfl⟩
    exact hmirrors.outcomes_eq hapart (htime i) hclean hreads

end StepGlue.Store

/-! ### Two sections, and a lone surrogate -/

namespace StepGlue.Store

open StepGlue.Text
open Json (Object)
open Json.Reader (value)

section TwoSections

attribute [local instance] Machine.plain

/-- A document with a member of somebody else and a section. -/
def sharedDocument : Object :=
  [("other", .int 7), ("first", .obj [("x", .int 1)])]

def sectionNames (isFirst : Bool) : String :=
  if isFirst then "first" else "second"

def twoStores (isFirst : Bool) : Store :=
  { onSettingsFile with sectionName := sectionNames isFirst }

theorem isStorable_sharedDocument : IsStorable sharedDocument where
  isReadable := ⟨.obj (by decide) (List.forall_mem_cons.mpr ⟨.int 7, List.forall_mem_singleton.mpr
    (.obj (by decide) (List.forall_mem_singleton.mpr (.int 1)))⟩), by decide⟩
  within_height := within_none _
  isEncodable := by decide

theorem sections_are_apart_of_two :
    Keeps (twoStores true) [("y", .int 2)] FileTree.settingsPath ["s.json"] sharedDocument
        ((twoStores true).update (settingsFileOf (.text (Json.obj sharedDocument).layout)) "t"
          [("y", .int 2)]).2.2 ∧
      (outcomes twoStores (settingsFileOf (.text (Json.obj sharedDocument).layout))
          [⟨true, .update [("y", .int 2)], "t"⟩, ⟨false, .snapshot, "u"⟩]).filter (·.1 = false) =
        outcomes twoStores (settingsFileOf (.text (Json.obj sharedDocument).layout))
          [⟨false, .snapshot, "u"⟩] := by
  have hclean (isFirst : Bool) : IsClean (sectionNames isFirst) "t" [("y", .int 2)] :=
    ⟨by cases isFirst <;> decide, by cases isFirst <;> decide, by decide,
      .obj (by decide) (List.forall_mem_singleton.mpr (.int 2)), by decide⟩
  have hempty : IsClean (sectionNames false) "u" [] :=
    ⟨by decide, by decide, by decide, .obj List.nodup_nil nofun, rfl⟩
  have hread := Json.readWithin_layout isStorable_sharedDocument.isReadable (within_none _)
  have hstores : OnFile twoStores FileTree.settingsPath sectionNames :=
    ⟨fun _ => rfl, fun _ => rfl⟩
  have happly := sections_are_apart hstores (by decide) (by decide) (isFilePath_settingsFileOf _)
    (isDirectory_settingsFileOf _) rfl hread isStorable_sharedDocument.isEncodable
  refine ⟨happly.1 true (.update [("y", .int 2)]) "t" (hclean true), ?_⟩
  refine happly.2 (within_none _) [⟨true, .update [("y", .int 2)], "t"⟩, ⟨false, .snapshot, "u"⟩]
    (List.forall_mem_cons.mpr ⟨hclean true, List.forall_mem_singleton.mpr hempty⟩) ?_ false
  exact fun _ _ _ _ _ => within_none _

end TwoSections

section LoneSurrogate

/-- Stand-ins at the start of the first plane for private use. -/
@[reducible] def firstStandIns : Machine :=
  .unbounded (.ofBlock? (some 0))

attribute [local instance] firstStandIns

/-- An object with a lone surrogate, as an escape. -/
def surrogateText : String :=
  "\x7b\n  \"other\": \"\\ud800\"\n\x7d"

theorem read_surrogateText : Json.read surrogateText =
    .ok (.obj [("other", .str (String.ofList [StandIns.standIn 0xD800]))]) := by
  have htext : surrogateText.toList =
      '\x7b' :: (Json.newLine 1 ++ (Json.stringText "other" ++ ':' :: ' ' :: '"' :: '\\' ::
        (['u', 'd', '8', '0', '0'] ++ '"' :: (Json.newLine 0 ++ ['\x7d'])))) := by
    decide
  have hend : Json.Reader.stringBody ('"' :: (Json.newLine 0 ++ ['\x7d'])) =
      .ok ([], Json.newLine 0 ++ ['\x7d']) := by
    rw [Json.Reader.stringBody, if_pos rfl]
  have hescape : Json.Reader.escape? (['u', 'd', '8', '0', '0'] ++
      '"' :: (Json.newLine 0 ++ ['\x7d'])) = some (StandIns.standIn 0xD800, 5) :=
    rfl
  have hbody := Json.stringBody_escape _ hescape
  rw [hend] at hbody
  have hvalue : value none 46 ('"' :: '\\' ::
      (['u', 'd', '8', '0', '0'] ++ '"' :: (Json.newLine 0 ++ ['\x7d']))) =
        .ok (.str (String.ofList [StandIns.standIn 0xD800]), Json.newLine 0 ++ ['\x7d']) := by
    rw [show 46 = 45 + 1 from rfl, value, hbody]
    rfl
  have hmembers := Json.members_last "other" (Json.startsValue_of_value hvalue) hvalue
  have hobject := Json.value_object (show (none : Option Nat) ≠ some 0 by decide) rfl 1 hmembers
  rw [Json.read, Json.readWithin, htext, Json.skipSpace_cons (by decide)]
  change (value none 48 _ >>= _) = _
  rw [hobject]
  rfl

/-- A lone surrogate that somebody else has stored makes an update fail, and nothing is left of the
document after that. -/
theorem not_keeps_lone_surrogate :
    (∃ before, onSettingsFile.document (settingsFileOf (.text surrogateText)) = .ok before ∧
        before.contains "other") ∧
      onSettingsFile.document
          (onSettingsFile.update (settingsFileOf (.text surrogateText)) "t" [("a", .int 1)]).2.2 =
        .ok [] := by
  have hfile := isFilePath_settingsFileOf (.text surrogateText)
  have hdocument : onSettingsFile.document (settingsFileOf (.text surrogateText)) =
      .ok [("other", .str (String.ofList [StandIns.standIn 0xD800]))] := by
    rw [document_of_text rfl hfile rfl, objectOfText, read_surrogateText]
  have hvalues : (Json.obj [("a", .int 1)]).WellFormed :=
    .obj (by decide) (List.forall_mem_singleton.mpr (.int 1))
  have hlow : Within (Machine.limit Nesting.written) (Json.obj (onSettingsFile.written
      [("other", .str (String.ofList [StandIns.standIn 0xD800]))] "t" [("a", .int 1)])).height :=
    within_none _
  obtain ⟨e, hupdate⟩ := exists_update_of_not_isEncodable rfl hdocument hfile hvalues hlow
    (by decide) (by decide)
  have hemptied := document_of_text (s := onSettingsFile) rfl (hfile.put_file (.text ""))
    (FileTree.lookup?_put_file hfile.not_directory)
  refine ⟨⟨_, hdocument, rfl⟩, ?_⟩
  rw [hupdate, hemptied]
  rfl

end LoneSurrogate

end StepGlue.Store
