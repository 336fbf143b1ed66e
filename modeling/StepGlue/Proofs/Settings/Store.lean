import StepGlue.Proofs.Json.Encodable
import StepGlue.Proofs.Json.Reader
import StepGlue.Proofs.Json.TooDeep
import StepGlue.Proofs.Workspace.FileTree
import StepGlue.Settings.Store

/-!
# A store on a file

What an update writes differs from what it read in the section and in the time only. It is written
whole if it is low enough, its integers are short and its texts have a form in UTF-8, and then it is
what is read from then on, unless it goes too deep for that. If only a text is in the way, the file
is emptied.
-/

namespace StepGlue.Store

open Json (Object)

variable {s : Store} {document values : Object} {now : String}

/-! ### Documents and sections -/

/-- The document that an update writes. -/
def written (s : Store) (document : Object) (now : String) (values : Object) : Object :=
  (document.set s.sectionName (.obj ((s.sectionOf document).update values))).set timeMember
    (.str now)

theorem get?_written (s : Store) (document : Object) (now : String) (values : Object)
    (name : String) : (s.written document now values).get? name =
      if name = timeMember then some (.str now)
      else if name = s.sectionName then some (.obj ((s.sectionOf document).update values))
      else document.get? name := by
  rw [written, Object.get?, Object.set, PairList.get?_set, Object.set, PairList.get?_set]
  rfl

theorem sectionOf_written (hsection : s.sectionName ≠ timeMember) :
    s.sectionOf (s.written document now values) = (s.sectionOf document).update values := by
  rw [sectionOf, get?_written, if_neg hsection, if_pos rfl]

/-- A section of the name under which the time is noted is lost. -/
theorem sectionOf_written_of_eq (hsection : s.sectionName = timeMember) :
    s.sectionOf (s.written document now values) = [] := by
  rw [sectionOf, get?_written, if_pos hsection]

/-- An update of one section leaves every other as it was. -/
theorem sectionOf_written_of_ne {other : Store} (hother : other.sectionName ≠ s.sectionName)
    (htime : other.sectionName ≠ timeMember) :
    other.sectionOf (s.written document now values) = other.sectionOf document := by
  rw [sectionOf, get?_written, if_neg htime, if_neg hother, sectionOf]

/-- A section of the name under which the time is noted is no member of what is written. -/
theorem mem_written (hnodup : (PairList.keys document).Nodup) {member : String × Json}
    (hmem : member ∈ s.written document now values) :
    member = (timeMember, .str now) ∨ member ∈ document ∨ s.sectionName ≠ timeMember ∧
      member = (s.sectionName, .obj ((s.sectionOf document).update values)) := by
  obtain ⟨name, v⟩ := member
  have hget : (s.written document now values).get? name = some v :=
    (PairList.get?_eq_some_iff (PairList.nodup_keys_set (PairList.nodup_keys_set hnodup))).mpr hmem
  rw [get?_written] at hget
  split_ifs at hget with htime hname
  · exact .inl (by rw [htime, Option.some.inj hget])
  · exact .inr (.inr ⟨fun h => htime (hname.trans h), by rw [hname, Option.some.inj hget]⟩)
  · exact .inr (.inl (PairList.mem_of_get?_eq_some hget))

theorem differsAt_written (s : Store) (document : Object) (now : String) (values : Object) :
    PairList.DiffersAt (fun name => name = s.sectionName ∨ name = timeMember) document
      (s.written document now values) :=
  (PairList.DiffersAt.set (.inl rfl) document _).trans (PairList.DiffersAt.set (.inr rfl) _ _)

theorem sectionOf_congr {other : Store} (h : s.sectionName = other.sectionName)
    (document : Object) : s.sectionOf document = other.sectionOf document := by
  rw [sectionOf, h, sectionOf]

theorem sectionOf_inMemory (s : Store) :
    s.sectionOf [(s.sectionName, .obj s.memory)] = s.memory := by
  simp [sectionOf, Object.get?, PairList.get?]

/-- The section as it stands in the document, if it is an object there. -/
theorem sectionOf_cases (s : Store) (document : Object) :
    (s.sectionName, .obj (s.sectionOf document)) ∈ document ∨ s.sectionOf document = [] := by
  rw [sectionOf]
  split
  · rename_i o ho
    exact .inl (PairList.mem_of_get?_eq_some ho)
  · exact .inr rfl

section Members

variable {P Q : String × Json → Prop}

/-- What holds of the members of a document is told of those of its section. -/
theorem forall_mem_sectionOf (hsection : ∀ o, P (s.sectionName, .obj o) → ∀ member ∈ o, Q member)
    (hdocument : ∀ member ∈ document, P member) : ∀ member ∈ s.sectionOf document, Q member := by
  rcases s.sectionOf_cases document with hmem | hnil
  · exact hsection _ (hdocument _ hmem)
  · rw [hnil]
    exact nofun

/-- What holds of the members of a written document is told of the values in its section. -/
theorem forall_mem_values (hsection : ∀ o, P (s.sectionName, .obj o) → ∀ member ∈ o, Q member)
    (hne : s.sectionName ≠ timeMember) (hnodup : (PairList.keys values).Nodup)
    (hwritten : ∀ member ∈ s.written document now values, P member) :
    ∀ member ∈ values, Q member := by
  have hmember : (s.sectionName, Json.obj ((s.sectionOf document).update values)) ∈
      s.written document now values := by
    apply PairList.mem_of_get?_eq_some
    exact (get?_written s document now values _).trans (by rw [if_neg hne, if_pos rfl])
  exact fun member hmem => hsection _ (hwritten _ hmember) member
    (PairList.mem_update_of_mem hnodup hmem)

/-- The members of a written document are as they have to be if and only if the values are. -/
theorem forall_mem_written_iff
    (hsection : ∀ o, P (s.sectionName, .obj o) ↔ ∀ member ∈ o, Q member)
    (htime : P (timeMember, .str now)) (hne : s.sectionName ≠ timeMember)
    (hnodup : (PairList.keys values).Nodup) (hdocument : ∀ member ∈ document, P member) :
    (∀ member ∈ s.written document now values, P member) ↔ ∀ member ∈ values, Q member := by
  refine ⟨forall_mem_values (fun o => (hsection o).mp) hne hnodup, fun h member hmem => ?_⟩
  have hold := forall_mem_sectionOf (fun o => (hsection o).mp) hdocument
  rcases PairList.mem_set hmem with rfl | hmem
  · exact htime
  rcases PairList.mem_set hmem with rfl | hmem
  · exact (hsection _).mpr (PairList.forall_mem_update hold h)
  · exact hdocument member hmem

end Members

/-! ### Documents that can be written -/

theorem wellFormed_sectionOf (s : Store) (h : (Json.obj document).WellFormed) :
    (Json.obj (s.sectionOf document)).WellFormed := by
  rcases s.sectionOf_cases document with hmem | hnil
  · exact h.member _ hmem
  · rw [hnil]
    exact .obj List.nodup_nil nofun

theorem isReadable_sectionOf (s : Store) (h : (Json.obj document).IsReadable) :
    (Json.obj (s.sectionOf document)).IsReadable := by
  rcases s.sectionOf_cases document with hmem | hnil
  · exact (Json.isReadable_obj_iff.mp h).2 _ hmem
  · rw [hnil]
    exact Json.isReadable_obj_iff.mpr ⟨List.nodup_nil, nofun⟩

theorem wellFormed_written (h : (Json.obj document).WellFormed)
    (hvalues : (Json.obj values).WellFormed) :
    (Json.obj (s.written document now values)).WellFormed :=
  (h.set ((s.wellFormed_sectionOf h).update hvalues) _).set (.str now) _

section Levels

variable {limit : Option Nat} {leaf : Nat} (hne : s.sectionName ≠ timeMember)
  (hnodup : (PairList.keys values).Nodup)
include hne hnodup

/-- The values stand one level below the document that they are written in. -/
theorem within_values_of_written
    (h : Within limit ((Json.obj (s.written document now values)).levels leaf))
    (htwo : Within limit 2) : Within limit ((Json.obj values).levels leaf + 1) := by
  have hsection (o : Object) (ho : Within limit ((Json.obj o).levels leaf + 1)) :=
    (Json.within_levels_obj_iff.mp ho).2
  have hmembers := (Json.within_obj_iff.mp h).2
  exact Json.within_levels_obj_iff.mpr ⟨htwo, forall_mem_values hsection hne hnodup hmembers⟩

theorem within_written_iff (hleaf : leaf ≤ 1) (htwo : Within limit 2)
    (hdocument : Within limit ((Json.obj document).levels leaf)) (now : String) :
    Within limit ((Json.obj (s.written document now values)).levels leaf) ↔
      Within limit ((Json.obj values).levels leaf + 1) := by
  refine ⟨fun h => within_values_of_written hne hnodup h htwo, fun h => ?_⟩
  have hsection (o : Object) : Within limit ((Json.obj o).levels leaf + 1) ↔
      ∀ member ∈ o, Within limit (member.2.levels leaf + 2) :=
    Json.within_levels_obj_iff.trans (and_iff_right htwo)
  have htime : Within limit ((Json.str now).levels leaf + 1) :=
    htwo.of_le (Nat.succ_le_succ hleaf)
  have hmembers := (Json.within_obj_iff.mp hdocument).2
  exact Json.within_obj_iff.mpr ⟨htwo.of_le (by decide),
    (forall_mem_written_iff hsection htime hne hnodup hmembers).mpr ((hsection _).mp h)⟩

theorem hasShortIntegers_written_iff (hdocument : (Json.obj document).hasShortIntegers)
    (now : String) :
    (Json.obj (s.written document now values)).hasShortIntegers ↔
      (Json.obj values).hasShortIntegers := by
  rw [Json.hasShortIntegers_obj_iff] at hdocument ⊢
  rw [Json.hasShortIntegers_obj_iff]
  exact forall_mem_written_iff (fun _ => Json.hasShortIntegers_obj_iff) rfl hne hnodup hdocument

end Levels

variable [Machine]

/-- Whether a document is written whole. -/
structure IsStorable (document : Object) : Prop where
  isReadable : (Json.obj document).IsReadable
  within_height : Within (Machine.limit Nesting.written) (Json.obj document).height
  isEncodable : (Json.obj document).isEncodable

theorem isStorable_nil : IsStorable [] where
  isReadable := Json.isReadable_obj_iff.mpr ⟨List.nodup_nil, nofun⟩
  within_height := Machine.within_written_two.of_le (by decide)
  isEncodable := rfl

theorem isEncodable_written_iff (hne : s.sectionName ≠ timeMember)
    (hnodup : (PairList.keys values).Nodup) (hname : Text.isEncodable s.sectionName)
    (hnow : Text.isEncodable now) (hdocument : (Json.obj document).isEncodable) :
    (Json.obj (s.written document now values)).isEncodable ↔ (Json.obj values).isEncodable := by
  rw [Json.isEncodable_obj_iff] at hdocument ⊢
  rw [Json.isEncodable_obj_iff]
  refine forall_mem_written_iff (fun o => ?_) ⟨?_, hnow⟩ hne hnodup hdocument
  · rw [Json.isEncodable_obj_iff, hname]
    simp only [true_and]
  · exact Json.all_admits_of_isAscii (s := timeMember.toList) (Text.toNat_lt_of_all (by decide))

/-! ### Copies -/

section Copies

variable {stored copied : Object}

theorem copy_of_within (h : Within (Machine.limit Nesting.copied) (Json.obj stored).height) :
    copy stored = .ok stored :=
  if_pos h

theorem copy_of_not_within (h : ¬Within (Machine.limit Nesting.copied) (Json.obj stored).height) :
    copy stored = .error (.tooDeep .descending) :=
  if_neg h

theorem copy_eq_ok_iff : copy stored = .ok copied ↔
    Within (Machine.limit Nesting.copied) (Json.obj stored).height ∧ copied = stored := by
  by_cases hlow : Within (Machine.limit Nesting.copied) (Json.obj stored).height
  · rw [copy_of_within hlow, Except.ok.injEq, eq_comm]
    exact (and_iff_right hlow).symm
  · rw [copy_of_not_within hlow]
    exact ⟨nofun, fun h => absurd h.1 hlow⟩

theorem eq_of_copy_eq_ok (h : copy stored = .ok copied) : copied = stored :=
  (copy_eq_ok_iff.mp h).2

/-- What was read stays readable if a section is set in it that can be copied, or that is lost. -/
theorem within_read_written (hdocument : Json.IsRead (Machine.limit Nesting.read) (.obj document))
    (hupdated : s.sectionName ≠ timeMember → Within (Machine.limit Nesting.copied)
      (Json.obj ((s.sectionOf document).update values)).height) (now : String) :
    Within (Machine.limit Nesting.read) (Json.obj (s.written document now values)).depth := by
  have hmembers := (Json.within_obj_iff.mp hdocument.within_depth).2
  refine Json.within_obj_iff.mpr ⟨Machine.within_read_two.of_le (by decide), fun member hmem => ?_⟩
  rcases mem_written hdocument.isReadable.wellFormed.nodup hmem with rfl | hold | ⟨hne, rfl⟩
  · exact Machine.within_read_two.of_le (Nat.le_succ 1)
  · exact hmembers member hold
  · exact (Machine.within_read_of_copied (hupdated hne)).of_le
      (Nat.succ_le_succ (Json.depth_le_height _))

end Copies

/-! ### Reading the file -/

variable {t : FileTree} {path : Path} {place : Location}

theorem objectOfText_layout (h : (Json.obj document).IsReadable)
    (hdepth : Within (Machine.limit Nesting.read) (Json.obj document).depth) :
    objectOfText (Json.obj document).layout = .ok document := by
  rw [objectOfText, Json.read, Json.readWithin_layout h hdepth]

theorem isRead_nil : Json.IsRead (Machine.limit Nesting.read) (.obj []) where
  isReadable := isStorable_nil.isReadable
  within_depth := Machine.within_read_two.of_le (by decide)

theorem isRead_of_objectOfText {text : String} (h : objectOfText text = .ok document) :
    Json.IsRead (Machine.limit Nesting.read) (.obj document) := by
  rw [objectOfText] at h
  split at h
  · rename_i hread
    obtain rfl := Except.ok.inj h
    exact Json.isRead_of_readWithin hread
  · obtain rfl := Except.ok.inj h
    exact isRead_nil
  · obtain rfl := Except.ok.inj h
    exact isRead_nil
  · exact nomatch h
  · exact nomatch h

theorem isRead_of_document (hpath : s.path = some path) (h : s.document t = .ok document) :
    Json.IsRead (Machine.limit Nesting.read) (.obj document) := by
  rw [Store.document, hpath] at h
  obtain ⟨found, -, h⟩ := bind_eq_ok_iff.mp h
  split at h
  · exact isRead_of_objectOfText h
  · cases h
  · obtain rfl := Except.ok.inj h
    exact isRead_nil
  · obtain rfl := Except.ok.inj h
    exact isRead_nil

/-- A file that holds a document: this is what every store on the file reads, or its layout has been
written and may go too deep to be read. -/
structure Holds (t : FileTree) (path : Path) (place : Location) (document : Object) : Prop where
  isFilePath : t.IsFilePath path place
  isReadable : (Json.obj document).IsReadable
  isRead_or_written : (∀ s : Store, s.path = some path → s.document t = .ok document) ∨
    t.lookup? place = some (.file (.text (Json.obj document).layout))

theorem document_of_text (hpath : s.path = some path) (hfile : t.IsFilePath path place)
    {text : String} (htext : t.lookup? place = some (.file (.text text))) :
    s.document t = objectOfText text := by
  rw [document, hpath]
  dsimp only
  rw [hfile.find?_eq, htext]
  rfl

theorem holds_of_document (hfile : t.IsFilePath path place) (hpath : s.path = some path)
    (h : s.document t = .ok document) : Holds t path place document := by
  refine ⟨hfile, (isRead_of_document hpath h).isReadable, .inl fun other hother => ?_⟩
  rw [← h, Store.document, Store.document, hother, hpath]

theorem holds_of_absent (hfile : t.IsFilePath path place) (habsent : t.lookup? place = none) :
    Holds t path place [] := by
  refine ⟨hfile, isStorable_nil.isReadable, .inl fun s hpath => ?_⟩
  rw [document, hpath]
  dsimp only
  rw [hfile.find?_eq, habsent]
  rfl

theorem holds_of_text (hfile : t.IsFilePath path place) {text : String}
    (htext : t.lookup? place = some (.file (.text text)))
    (hdocument : objectOfText text = .ok document) : Holds t path place document :=
  ⟨hfile, (isRead_of_objectOfText hdocument).isReadable,
    .inl fun _ hpath => (document_of_text hpath hfile htext).trans hdocument⟩

theorem holds_put_layout (hfile : t.IsFilePath path place) (h : (Json.obj document).IsReadable) :
    Holds (t.put place (.file (.text (Json.obj document).layout))) path place document :=
  ⟨hfile.put_file _, h, .inr (FileTree.lookup?_put_file hfile.not_directory)⟩

section Holds

variable (hholds : Holds t path place document) (hpath : s.path = some path)
include hholds hpath

/-- What a file holds is read, unless it goes too deep. -/
theorem Holds.document_cases :
    (Within (Machine.limit Nesting.read) (Json.obj document).depth ∧ s.document t = .ok document) ∨
      (¬Within (Machine.limit Nesting.read) (Json.obj document).depth ∧
        ∃ container, s.document t = .error (.tooDeep (.reading container))) := by
  rcases hholds.isRead_or_written with hread | hwritten
  · exact .inl ⟨(isRead_of_document hpath (hread s hpath)).within_depth, hread s hpath⟩
  · have hdocument := document_of_text hpath hholds.isFilePath hwritten
    by_cases hdepth : Within (Machine.limit Nesting.read) (Json.obj document).depth
    · exact .inl ⟨hdepth, hdocument.trans (objectOfText_layout hholds.isReadable hdepth)⟩
    · obtain ⟨container, hdeep⟩ := Json.isTooDeep_readWithin_layout hholds.isReadable hdepth
      exact .inr ⟨hdepth, container, by rw [hdocument, objectOfText, Json.read, hdeep]⟩

theorem Holds.document_eq
    (hdepth : Within (Machine.limit Nesting.read) (Json.obj document).depth) :
    s.document t = .ok document :=
  (hholds.document_cases hpath).elim And.right fun h => absurd hdepth h.1

theorem Holds.eq_of_document {read : Object} (h : s.document t = .ok read) : read = document := by
  rcases hholds.document_cases hpath with ⟨-, hread⟩ | ⟨-, _, hfails⟩
  · exact Except.ok.inj (h.symm.trans hread)
  · cases h.symm.trans hfails

end Holds

/-- A section has no name twice, if that is so in memory. -/
theorem wellFormed_stored (hmemory : (Json.obj s.memory).WellFormed)
    (h : s.document t = .ok document) : (Json.obj (s.sectionOf document)).WellFormed := by
  cases hpath : s.path with
  | none =>
    rw [Store.document, hpath] at h
    obtain rfl := Except.ok.inj h
    rw [sectionOf_inMemory]
    exact hmemory
  | some path =>
    exact wellFormed_sectionOf s (isRead_of_document hpath h).isReadable.wellFormed

theorem snapshot_eq (hdocument : s.document t = .ok document) :
    s.snapshot t = copy (s.sectionOf document) := by
  rw [snapshot, hdocument]
  rfl

/-- A snapshot shows the section of the document. -/
theorem exists_document_of_snapshot {stored : Object} (h : s.snapshot t = .ok stored) :
    ∃ document, s.document t = .ok document ∧ s.sectionOf document = stored := by
  obtain ⟨document, hdocument, hcopy⟩ := bind_eq_ok_iff.mp h
  exact ⟨document, hdocument, (eq_of_copy_eq_ok hcopy).symm⟩

theorem sectionOf_eq_of_snapshot {stored : Object} (hdocument : s.document t = .ok document)
    (h : s.snapshot t = .ok stored) : s.sectionOf document = stored :=
  (eq_of_copy_eq_ok ((snapshot_eq hdocument).symm.trans h)).symm

/-! ### Writing the file -/

section Update

variable (hpath : s.path = some path) (hdocument : s.document t = .ok document)
include hpath hdocument

/-- A document that would be written where no file can be is written nowhere. -/
theorem update_of_filePlace {e : Failure} (hplace : t.filePlace path = .error e) (now : String)
    (values : Object) :
    s.update t now values = (.error (.tooDeep .descending), s, t) ∨
      ¬(Json.obj (s.written document now values)).hasShortIntegers ∧
        s.update t now values = (.error (.integerTooLong none), s, t) ∨
      s.update t now values = (.error e, s, t) := by
  simp only [update, hdocument, save, hpath, FileTree.writeText_of_filePlace hplace, written]
  split_ifs with _ hshort
  · exact .inr (.inr rfl)
  · exact .inr (.inl ⟨hshort, rfl⟩)
  · exact .inl rfl

theorem exists_update_of_filePlace {e : Failure} (hplace : t.filePlace path = .error e)
    (now : String) (values : Object) :
    ∃ e, s.update t now values = (.error e, s, t) := by
  rcases update_of_filePlace hpath hdocument hplace now values with
    hupdate | ⟨-, hupdate⟩ | hupdate
  · exact ⟨_, hupdate⟩
  · exact ⟨_, hupdate⟩
  · exact ⟨_, hupdate⟩

theorem update_of_tall
    (htall : ¬Within (Machine.limit Nesting.written)
      (Json.obj (s.written document now values)).height) :
    s.update t now values = (.error (.tooDeep .descending), s, t) := by
  rw [written] at htall
  simp only [update, hdocument, save, hpath, if_neg htall]

theorem update_of_long_integer
    (hlow : Within (Machine.limit Nesting.written)
      (Json.obj (s.written document now values)).height)
    (hlong : ¬(Json.obj (s.written document now values)).hasShortIntegers) :
    s.update t now values = (.error (.integerTooLong none), s, t) := by
  rw [written] at hlow hlong
  simp only [update, hdocument, save, hpath, if_pos hlow, if_neg hlong]

theorem update_of_short
    (hlow : Within (Machine.limit Nesting.written)
      (Json.obj (s.written document now values)).height)
    (hshort : (Json.obj (s.written document now values)).hasShortIntegers) :
    s.update t now values =
      match t.writeText path (Json.obj (s.written document now values)).layout with
      | (.error e, t) => (.error e, s, t)
      | (.ok (), t) => (copy ((s.sectionOf document).update values), s, t) := by
  rw [written] at hlow hshort ⊢
  simp only [update, hdocument, save, hpath, if_pos hlow, if_pos hshort]
  obtain ⟨outcome, t'⟩ := t.writeText path (Json.obj ((document.set s.sectionName
    (.obj ((s.sectionOf document).update values))).set timeMember (.str now))).layout
  cases outcome <;> rfl

variable (hfile : t.IsFilePath path place)
include hfile

/-- A text without a form in UTF-8 stops the write after the file was emptied. -/
theorem exists_update_of_not_isEncodable (hvalues : (Json.obj values).WellFormed)
    (hlow : Within (Machine.limit Nesting.written)
      (Json.obj (s.written document now values)).height)
    (hshort : (Json.obj (s.written document now values)).hasShortIntegers)
    (hencodable : ¬(Json.obj (s.written document now values)).isEncodable) :
    ∃ e, s.update t now values = (.error (.unencodable e), s, t.put place (.file (.text ""))) := by
  have hwell : (Json.obj (s.written document now values)).WellFormed :=
    wellFormed_written (isRead_of_document hpath hdocument).isReadable.wellFormed hvalues
  rw [← Json.isEncodable_layout hwell] at hencodable
  obtain ⟨e, he⟩ := hfile.exists_writeText_of_not_isEncodable hencodable
  exact ⟨e, by rw [update_of_short hpath hdocument hlow hshort, he]⟩

theorem update_of_isStorable (hstorable : IsStorable (s.written document now values)) :
    s.update t now values = (copy ((s.sectionOf document).update values), s,
      t.put place (.file (.text (Json.obj (s.written document now values)).layout))) := by
  have hencodable := hstorable.isEncodable
  rw [← Json.isEncodable_layout hstorable.isReadable.wellFormed] at hencodable
  rw [update_of_short hpath hdocument hstorable.within_height hstorable.isReadable.hasShortIntegers,
    hfile.writeText_of_isEncodable hencodable]

/-- An update is refused before it writes, it empties the file, or it is written whole. -/
theorem update_cases (hvalues : (Json.obj values).WellFormed) (now : String) :
    (¬Within (Machine.limit Nesting.written) (Json.obj (s.written document now values)).height ∧
      s.update t now values = (.error (.tooDeep .descending), s, t)) ∨
    (Within (Machine.limit Nesting.written) (Json.obj (s.written document now values)).height ∧
      ¬(Json.obj (s.written document now values)).hasShortIntegers ∧
      s.update t now values = (.error (.integerTooLong none), s, t)) ∨
    (¬(Json.obj (s.written document now values)).isEncodable ∧
      ∃ e, s.update t now values = (.error (.unencodable e), s, t.put place (.file (.text "")))) ∨
    (IsStorable (s.written document now values) ∧
      s.update t now values = (copy ((s.sectionOf document).update values), s,
        t.put place (.file (.text (Json.obj (s.written document now values)).layout)))) := by
  have hwell := (isRead_of_document hpath hdocument).isReadable.wellFormed
  by_cases hlow : Within (Machine.limit Nesting.written)
      (Json.obj (s.written document now values)).height
  · by_cases hshort : (Json.obj (s.written document now values)).hasShortIntegers
    · by_cases hencodable : (Json.obj (s.written document now values)).isEncodable
      · have hstorable : IsStorable (s.written document now values) :=
          ⟨⟨wellFormed_written hwell hvalues, hshort⟩, hlow, hencodable⟩
        exact .inr (.inr (.inr ⟨hstorable, update_of_isStorable hpath hdocument hfile hstorable⟩))
      · exact .inr (.inr (.inl ⟨hencodable,
          exists_update_of_not_isEncodable hpath hdocument hfile hvalues hlow hshort hencodable⟩))
    · exact .inr (.inl ⟨hlow, hshort, update_of_long_integer hpath hdocument hlow hshort⟩)
  · exact .inl ⟨hlow, update_of_tall hpath hdocument hlow⟩

end Update

/-! ### What a store holds -/

/-- A document that a store holds, whether or not it can be read: it is read, or it was written to
the file of the store. It is read if its section can be copied. -/
structure Contains (s : Store) (t : FileTree) (document : Object) : Prop where
  isRead_or_written : s.document t = .ok document ∨ ∃ path place, s.path = some path ∧
    Holds t path place document
  document_eq : Within (Machine.limit Nesting.copied) (Json.obj (s.sectionOf document)).height →
    s.document t = .ok document

theorem contains_of_document (h : s.document t = .ok document) : s.Contains t document :=
  ⟨.inl h, fun _ => h⟩

theorem contains_put_written (hpath : s.path = some path) (hdocument : s.document t = .ok document)
    (hfile : t.IsFilePath path place) (hstorable : IsStorable (s.written document now values)) :
    s.Contains (t.put place (.file (.text (Json.obj (s.written document now values)).layout)))
      (s.written document now values) := by
  have hholds := holds_put_layout hfile hstorable.isReadable
  refine ⟨.inr ⟨path, place, hpath, hholds⟩, fun hcopy => hholds.document_eq hpath ?_⟩
  refine within_read_written (isRead_of_document hpath hdocument) (fun hne => ?_) now
  rwa [sectionOf_written hne] at hcopy

/-- What a store holds is read, or it goes too deep for that. -/
theorem Contains.document_cases (h : s.Contains t document) : s.document t = .ok document ∨
    ∃ container, s.document t = .error (.tooDeep (.reading container)) := by
  rcases h.isRead_or_written with hread | ⟨path, place, hpath, hholds⟩
  · exact .inl hread
  · exact (hholds.document_cases hpath).imp And.right And.right

/-- A snapshot of what a store holds is its section, if this can be copied. -/
theorem Contains.snapshot_eq_ok_iff (h : s.Contains t document) {stored : Object} :
    s.snapshot t = .ok stored ↔ Within (Machine.limit Nesting.copied)
      (Json.obj (s.sectionOf document)).height ∧ stored = s.sectionOf document := by
  constructor
  · intro hsnapshot
    rcases h.document_cases with hread | ⟨container, hfails⟩
    · rw [snapshot_eq hread] at hsnapshot
      exact copy_eq_ok_iff.mp hsnapshot
    · rw [snapshot, hfails] at hsnapshot
      cases hsnapshot
  · rintro ⟨hcopy, rfl⟩
    rw [snapshot_eq (h.document_eq hcopy), copy_of_within hcopy]

/-! ### A file in an empty tree -/

/-- A store on the file in an empty tree. -/
def onSettingsFile : Store where
  path := some FileTree.settingsPath
  sectionName := defaultSection
  memory := []

/-- A tree that holds nothing but the settings file. -/
def settingsFileOf (content : FileContent) : FileTree :=
  FileTree.empty.put ["s.json"] (.file content)

theorem isFilePath_settingsFileOf (content : FileContent) :
    (settingsFileOf content).IsFilePath FileTree.settingsPath ["s.json"] :=
  FileTree.isFilePath_empty.put_file content

theorem isDirectory_settingsFileOf (content : FileContent) :
    (settingsFileOf content).isDirectory FileTree.settingsPath.parent = .ok true :=
  FileTree.isDirectory_put_file FileTree.isFilePath_empty.not_directory FileTree.isDirectory_empty

end StepGlue.Store
