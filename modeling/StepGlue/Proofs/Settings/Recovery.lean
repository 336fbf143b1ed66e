import StepGlue.Proofs.Settings.Store

/-!
# Damaged settings files

A file that holds no JSON, or no object, stands for an empty document. Bytes that are not UTF-8, an
integer with too many digits and arrays or objects too many levels inside one another are no such
damage: with these no store can be read or updated.
-/

namespace StepGlue.Store

open Json (Object)
open StepGlue.Text

variable {s : Store} {content : Option (List UInt8)} {values : Object} {now : String} [Machine]
  {t : FileTree} {path : Path} {place : Location}

/-- The document that a file stands for, if there is a file: it is empty unless the bytes are those
of a JSON object. -/
def standsFor : Option (List UInt8) → Object
  | none => []
  | some bytes =>
    match Utf8.decode bytes with
    | .error _ => []
    | .ok text =>
      match Json.read text with
      | .ok (.obj document) => document
      | _ => []

/-- Whether a file is UTF-8 and either can be read as JSON or is malformed, and nothing worse. -/
def IsLegible (content : Option (List UInt8)) : Prop :=
  ∀ bytes ∈ content, ∃ text, Utf8.decode bytes = .ok text ∧
    ∀ e, Json.read text = .error e → e = .malformed

/-! ### Reading -/

theorem objectOfText_eq_ok_iff {text : String} : (∃ document, objectOfText text = .ok document) ↔
    ∀ e, Json.read text = .error e → e = .malformed := by
  rw [objectOfText]
  cases hread : Json.read text with
  | ok v => cases v <;> simp
  | error e => cases e <;> simp

theorem objectOfText_eq {text : String} {document : Object} (h : objectOfText text = .ok document) :
    document = match Json.read text with
      | .ok (.obj document) => document
      | _ => [] := by
  rw [objectOfText] at h
  split at h <;> simp_all

section Reading

variable (hpath : s.path = some path) (hfile : t.IsFilePath path place)
  (hcontent : t.lookup? place = content.map fun bytes => .file (.ofBytes bytes))
include hpath hfile hcontent

theorem document_of_isLegible (hlegible : IsLegible content) :
    s.document t = .ok (standsFor content) := by
  cases content with
  | none => exact (holds_of_absent hfile hcontent).document_eq hpath isRead_nil.within_depth
  | some bytes =>
    obtain ⟨text, hdecode, hread⟩ := hlegible bytes rfl
    obtain ⟨document, hdocument⟩ := objectOfText_eq_ok_iff.mpr hread
    have htext : t.lookup? place = some (.file (.text text)) := by
      rw [hcontent, Option.map_some, FileContent.ofBytes, hdecode]
    have hstands : standsFor (some bytes) = document := by
      rw [standsFor, hdecode]
      exact (objectOfText_eq hdocument).symm
    rw [hstands, document_of_text hpath hfile htext, hdocument]

theorem isLegible_of_document {document : Object} (h : s.document t = .ok document) :
    IsLegible content := by
  rintro bytes rfl
  rw [Store.document, hpath] at h
  dsimp only at h
  rw [hfile.find?_eq, hcontent, Option.map_some, FileContent.ofBytes] at h
  cases hdecode : Utf8.decode bytes with
  | error e =>
    rw [hdecode] at h
    cases h
  | ok text =>
    rw [hdecode] at h
    exact ⟨text, rfl, objectOfText_eq_ok_iff.mp ⟨document, h⟩⟩

end Reading

/-! ### Recovery -/

theorem snapshot_eq_standsFor_iff (hpath : s.path = some path) (hfile : t.IsFilePath path place)
    (hcontent : t.lookup? place = content.map fun bytes => .file (.ofBytes bytes)) :
    s.snapshot t = .ok (s.sectionOf (standsFor content)) ↔ IsLegible content ∧
      Within (Machine.limit Nesting.copied)
        (Json.obj (s.sectionOf (standsFor content))).height := by
  constructor
  · intro h
    obtain ⟨document, hdocument, -⟩ := bind_eq_ok_iff.mp h
    have hlegible := isLegible_of_document hpath hfile hcontent hdocument
    rw [snapshot_eq (document_of_isLegible hpath hfile hcontent hlegible)] at h
    exact ⟨hlegible, (copy_eq_ok_iff.mp h).1⟩
  · rintro ⟨hlegible, hlow⟩
    rw [snapshot_eq (document_of_isLegible hpath hfile hcontent hlegible), copy_of_within hlow]

/-- After an update that succeeds a snapshot has all values that were set, unless the section is the
member that takes the time. -/
theorem snapshot_after_update {document : Object} (hpath : s.path = some path)
    (hfile : t.IsFilePath path place) (hdocument : s.document t = .ok document)
    (hvalues : (Json.obj values).WellFormed) :
    (∃ stored, (s.update t now values).1 = .ok stored ∧
      ∃ after, s.snapshot (s.update t now values).2.2 = .ok after ∧
        ∀ member ∈ values, after.get? member.1 = some member.2) ↔
      IsStorable (s.written document now values) ∧
        Within (Machine.limit Nesting.copied)
          (Json.obj ((s.sectionOf document).update values)).height ∧
        (s.sectionName ≠ timeMember ∨ values = []) := by
  constructor
  · rintro ⟨stored, hstored, after, hafter, hmembers⟩
    rcases update_cases hpath hdocument hfile hvalues now with
      ⟨-, hupdate⟩ | ⟨-, -, hupdate⟩ | ⟨-, e, hupdate⟩ | ⟨hstorable, hupdate⟩
    · exact nomatch hupdate ▸ hstored
    · exact nomatch hupdate ▸ hstored
    · exact nomatch hupdate ▸ hstored
    · rw [hupdate] at hstored hafter
      refine ⟨hstorable, (copy_eq_ok_iff.mp hstored).1, ?_⟩
      -- a section of the name of the time is a text by now, so none of the values is there
      by_contra hnot
      obtain ⟨hsection, hne⟩ := not_or.mp hnot
      obtain ⟨read, hread, rfl⟩ := exists_document_of_snapshot hafter
      obtain rfl := (holds_put_layout hfile hstorable.isReadable).eq_of_document hpath hread
      rw [sectionOf_written_of_eq (not_not.mp hsection)] at hmembers
      obtain ⟨member, rest, rfl⟩ := List.exists_cons_of_ne_nil hne
      exact nomatch hmembers member List.mem_cons_self
  · rintro ⟨hstorable, hlow, hsection⟩
    have hcopy := copy_of_within hlow
    have hread := isRead_of_document hpath hdocument
    have hsnapshot := snapshot_eq ((holds_put_layout hfile hstorable.isReadable).document_eq hpath
      (within_read_written hread (fun _ => hlow) now))
    have hupdate := update_of_isStorable hpath hdocument hfile hstorable
    refine ⟨_, by rw [hupdate, hcopy], ?_⟩
    rw [hupdate, hsnapshot]
    by_cases hne : s.sectionName = timeMember
    · obtain rfl := hsection.resolve_left (not_not.mpr hne)
      rw [sectionOf_written_of_eq hne]
      exact ⟨[], copy_of_within (Machine.within_copied_two.of_le (by decide)), nofun⟩
    · rw [sectionOf_written hne, hcopy]
      have hnodup := (s.wellFormed_sectionOf hread.isReadable.wellFormed).nodup
      refine ⟨_, rfl, fun member hmem => ?_⟩
      exact (PairList.get?_eq_some_iff (PairList.nodup_keys_update hnodup)).mpr
        (PairList.mem_update_of_mem hvalues.nodup hmem)

/-- **What a damaged file does.** A snapshot is what the file stands for, and an update sets all
values, exactly if the file can be made out and what is to be copied or written can be. -/
theorem recovers_iff (hpath : s.path = some path) (hfile : t.IsFilePath path place)
    (hcontent : t.lookup? place = content.map fun bytes => .file (.ofBytes bytes))
    (hvalues : (Json.obj values).WellFormed) :
    (s.snapshot t = .ok (s.sectionOf (standsFor content)) ↔ IsLegible content ∧
      Within (Machine.limit Nesting.copied)
        (Json.obj (s.sectionOf (standsFor content))).height) ∧
    ((∃ stored, (s.update t now values).1 = .ok stored ∧
      ∃ after, s.snapshot (s.update t now values).2.2 = .ok after ∧
        ∀ member ∈ values, after.get? member.1 = some member.2) ↔
      IsLegible content ∧ IsStorable (s.written (standsFor content) now values) ∧
        Within (Machine.limit Nesting.copied)
          (Json.obj ((s.sectionOf (standsFor content)).update values)).height ∧
        (s.sectionName ≠ timeMember ∨ values = [])) := by
  refine ⟨snapshot_eq_standsFor_iff hpath hfile hcontent, ?_⟩
  by_cases hlegible : IsLegible content
  · have hdocument := document_of_isLegible hpath hfile hcontent hlegible
    rw [snapshot_after_update hpath hfile hdocument hvalues]
    exact (and_iff_right hlegible).symm
  · refine ⟨?_, fun h => absurd h.1 hlegible⟩
    rintro ⟨stored, hstored, -⟩
    cases hdocument : s.document t with
    | error e =>
      rw [update, hdocument] at hstored
      cases hstored
    | ok document => exact absurd (isLegible_of_document hpath hfile hcontent hdocument) hlegible

end StepGlue.Store

/-! ### An opening brace, and a byte that is no UTF-8 -/

namespace StepGlue.Store

open StepGlue.Text

attribute [local instance] Machine.plain

theorem decode_brace : Utf8.decode [0x7b] = .ok "\x7b" := by
  simp [Utf8.decode, Utf8.decodeAt, Utf8.continuationCount?, Utf8.continuationFault?]
  rfl

theorem recovers_from_brace :
    onSettingsFile.snapshot (settingsFileOf (.ofBytes [0x7b])) = .ok [] ∧
      ∃ stored, (onSettingsFile.update (settingsFileOf (.ofBytes [0x7b])) "t" [("a", .int 1)]).1 =
          .ok stored ∧
        ∃ after, onSettingsFile.snapshot
            (onSettingsFile.update (settingsFileOf (.ofBytes [0x7b])) "t" [("a", .int 1)]).2.2 =
              .ok after ∧
          ∀ member ∈ [("a", Json.int 1)], after.get? member.1 = some member.2 := by
  have hvalues : (Json.obj [("a", .int 1)]).WellFormed :=
    .obj (by decide) (List.forall_mem_singleton.mpr (.int 1))
  have hstands : standsFor (some [0x7b]) = [] := by
    rw [standsFor, decode_brace]
    rfl
  have hlegible : IsLegible (some [0x7b]) := by
    rintro _ ⟨⟩
    exact ⟨_, decode_brace, fun e he => (Except.error.inj he).symm⟩
  have hrecovers := @recovers_iff onSettingsFile (some [0x7b]) [("a", .int 1)] "t" _ _ _ _ rfl
    (isFilePath_settingsFileOf (.ofBytes [0x7b])) rfl hvalues
  rw [hstands] at hrecovers
  have hstorable : IsStorable (onSettingsFile.written [] "t" [("a", .int 1)]) :=
    ⟨⟨wellFormed_written (.obj List.nodup_nil nofun) hvalues, by decide⟩, by decide, by decide⟩
  exact ⟨hrecovers.1.mpr ⟨hlegible, by decide⟩,
    hrecovers.2.mpr ⟨hlegible, hstorable, by decide, .inl (by decide)⟩⟩

theorem not_recovers_from_invalid_byte :
    onSettingsFile.snapshot (settingsFileOf (.ofBytes [0xff])) =
      .error (.undecodable
        { fault := .invalidStart, position := 0, length := 1, byte := 0xff }) := by
  have hcontent : FileContent.ofBytes [0xff] = .binary [0xff] ⟨.invalidStart, 0, 1, 0xff⟩ := by
    simp [FileContent.ofBytes, Utf8.decode, Utf8.decodeAt, Utf8.continuationCount?, Except.map]
  rw [hcontent]
  rfl

end StepGlue.Store
