import StepGlue.Proofs.Except
import StepGlue.Service.Payload

/-!
# The answers of a request

Reading a body collects faults and drops none, so a body that is accepted had none on the way. Its
answers are texts, or null where a question is cancelled.
-/

namespace StepGlue.Payload

open Json (Object)

/-! ### Faults that are collected -/

section Collects

variable {α β : Type} {findings after : List Finding}

/-- Whether a reading keeps the faults that were found before it. -/
def Collects (reading : Reading α) : Prop :=
  ∀ findings, findings <+: (reading.run findings).2

theorem run_bind_eq_iff {reading : Reading α} {f : α → Reading β} {b : β} :
    (reading >>= f).run findings = (b, after) ↔
      ∃ a between, reading.run findings = (a, between) ∧ (f a).run between = (b, after) := by
  constructor
  · exact fun h => ⟨_, _, rfl, h⟩
  · rintro ⟨a, between, hfirst, hrest⟩
    rw [← hrest]
    exact congrArg (fun state : α × List Finding => (f state.1).run state.2) hfirst

theorem Collects.eq_nil {reading : Reading α} (h : Collects reading) {a : α}
    (hrun : reading.run findings = (a, [])) : findings = [] := by
  have hprefix := h findings
  rw [hrun] at hprefix
  exact List.prefix_nil.mp hprefix

theorem collects_pure (a : α) : Collects (pure a) :=
  fun findings => List.prefix_refl findings

theorem Collects.bind {reading : Reading α} (h : Collects reading) {f : α → Reading β}
    (hf : ∀ a, Collects (f a)) : Collects (reading >>= f) :=
  fun findings => (h findings).trans (hf _ _)

theorem collects_report (kind : Fault.Kind) (place : Place) (value : Json) :
    Collects (report kind place value) :=
  fun findings => List.prefix_append findings _

end Collects

/-! ### Fields -/

section Fields

variable (o : Object) (place : Place) (names : List String)

theorem collects_text : Collects (text o place names) := by
  rw [text]
  split
  · exact collects_pure _
  · exact collects_pure _
  · exact collects_pure _
  · exact (collects_report _ _ _).bind fun _ => collects_pure _

theorem collects_texts (index : Nat) (items : List Json) : Collects (texts place index items) := by
  induction items generalizing index with
  | nil => exact collects_pure _
  | cons v rest ih =>
    rw [texts.eq_def]
    cases v with
    | str s => exact (ih _).bind fun _ => collects_pure _
    | _ => exact (collects_report _ _ _).bind fun _ => ih _

theorem collects_textList : Collects (textList o place names) := by
  rw [textList]
  split
  · exact collects_pure _
  · exact collects_pure _
  · exact (collects_texts _ _ _).bind fun _ => collects_pure _
  · exact (collects_report _ _ _).bind fun _ => collects_pure _

theorem collects_framework : Collects (framework o place) := by
  rw [framework]
  split
  · exact collects_pure _
  · exact collects_pure _
  · split
    · exact collects_pure _
    · exact (collects_report _ _ _).bind fun _ => collects_pure _

theorem collects_flag : Collects (flag o place names) := by
  rw [flag]
  split
  · exact collects_pure _
  · split
    · exact collects_pure _
    · exact (collects_report _ _ _).bind fun _ => collects_pure _

theorem collects_settings : Collects (settings o place) :=
  (collects_text _ _ _).bind fun _ => (collects_text _ _ _).bind fun _ =>
    (collects_text _ _ _).bind fun _ => (collects_textList _ _ _).bind fun _ =>
      (collects_textList _ _ _).bind fun _ => (collects_framework _ _).bind fun _ =>
        collects_pure _

theorem collects_overrides : Collects (overrides o place) := by
  rw [overrides]
  split
  · exact collects_pure _
  · exact collects_pure _
  · exact collects_settings _ _
  · exact (collects_report _ _ _).bind fun _ => collects_pure _

end Fields

/-! ### Answers -/

/-- Whether all answers are texts, or null. -/
def AreAnswers (answers : Object) : Prop :=
  ∀ answer ∈ answers, answer.2 = .null ∨ ∃ s, answer.2 = .str s

variable [Machine] {o : Object} {place : Place} {findings : List Finding} {members : Object}

theorem collects_answerList (place : Place) (members : Object) :
    Collects (answerList place members) := by
  induction members with
  | nil => exact collects_pure _
  | cons member rest ih =>
    obtain ⟨name, v⟩ := member
    rw [answerList.eq_def]
    cases v with
    | str | null => exact ih
    | _ => exact (collects_report _ _ _).bind fun _ => ih

theorem areAnswers_of_answerList (h : (answerList place members).run findings = ((), [])) :
    AreAnswers members := by
  induction members with
  | nil => exact List.forall_mem_nil _
  | cons member rest ih =>
    obtain ⟨name, v⟩ := member
    rw [answerList.eq_def] at h
    cases v with
    | str s => exact List.forall_mem_cons.mpr ⟨.inr ⟨s, rfl⟩, ih h⟩
    | null => exact List.forall_mem_cons.mpr ⟨.inl rfl, ih h⟩
    | _ =>
      -- the fault that is reported is still there at the end
      obtain ⟨_, _, hreport, hrest⟩ := run_bind_eq_iff.mp h
      obtain rfl := (collects_answerList _ _).eq_nil hrest
      exact absurd (Prod.mk.inj hreport).2 (by simp)

theorem areAnswers_of_answers (h : (answers o place).run findings = (members, [])) :
    AreAnswers members := by
  rw [answers] at h
  split at h
  · obtain ⟨rfl, -⟩ := Prod.mk.inj h
    exact List.forall_mem_nil _
  · obtain ⟨_, _, hlist, hpure⟩ := run_bind_eq_iff.mp h
    obtain ⟨rfl, rfl⟩ := Prod.mk.inj hpure
    exact areAnswers_of_answerList hlist
  · obtain ⟨_, _, -, hpure⟩ := run_bind_eq_iff.mp h
    obtain ⟨rfl, -⟩ := Prod.mk.inj hpure
    exact List.forall_mem_nil _

theorem areAnswers_of_editor {editor : EditorPayload}
    (h : (Payload.editor o place).run findings = (editor, [])) : AreAnswers editor.answers := by
  obtain ⟨_, _, -, h⟩ := run_bind_eq_iff.mp h
  obtain ⟨_, _, -, h⟩ := run_bind_eq_iff.mp h
  obtain ⟨_, _, -, h⟩ := run_bind_eq_iff.mp h
  obtain ⟨_, _, -, h⟩ := run_bind_eq_iff.mp h
  obtain ⟨_, _, hanswers, h⟩ := run_bind_eq_iff.mp h
  obtain ⟨_, _, hoverrides, hpure⟩ := run_bind_eq_iff.mp h
  obtain ⟨rfl, rfl⟩ := Prod.mk.inj hpure
  obtain rfl := (collects_overrides _ _).eq_nil hoverrides
  exact areAnswers_of_answers hanswers

/-- A body is accepted if no fault was found. -/
theorem exists_run_of_read {α : Type} {body : Option RequestBody}
    {fields : Object → Place → Reading α} {payload : α} (h : read body fields = .ok payload) :
    ∃ o, (fields o [.member "body"]).run [] = (payload, []) := by
  rw [read.eq_def] at h
  split at h
  · cases h
  · cases h
  · obtain ⟨v, -, h⟩ := bind_eq_ok_iff.mp h
    split at h
    · rename_i o
      rcases hrun : (fields o [.member "body"]).run [] with ⟨result, findings⟩
      simp only [hrun] at h
      split at h
      · rename_i hempty
        obtain rfl := Except.ok.inj h
        exact ⟨o, by rw [hrun, List.isEmpty_iff.mp hempty]⟩
      · cases h
    · cases h

/-- The answers of a body that is accepted are texts, or null. -/
theorem areAnswers_of_read {body : Option RequestBody} {payload : GeneratePayload}
    (h : read body generate = .ok payload) : AreAnswers payload.editor.answers := by
  obtain ⟨o, hrun⟩ := exists_run_of_read h
  obtain ⟨_, _, heditor, hrest⟩ := run_bind_eq_iff.mp hrun
  obtain ⟨_, _, hflag, hpure⟩ := run_bind_eq_iff.mp hrest
  obtain ⟨rfl, rfl⟩ := Prod.mk.inj hpure
  obtain rfl := (collects_flag _ _ _).eq_nil hflag
  exact areAnswers_of_editor heditor

end StepGlue.Payload
