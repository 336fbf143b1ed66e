import StepGlue.Json.Display
import StepGlue.Proofs.Except
import StepGlue.Proofs.Json.WellFormed

/-!
# Values that are shown

A value has no form to be shown if it goes too deep or has an integer with too many digits. Nothing
else is in the way.
-/

namespace StepGlue.Json

open StepGlue.Text

section Nested

variable [StandIns]

mutual

theorem cases_of_nestedWithin_eq_error (room : Option Nat) : ∀ (v : Json) {e : Failure},
    v.nestedWithin room = .error e →
      e = .tooDeep .showing ∨ e = .integerTooLong none ∧ ¬v.hasShortIntegers
  | v, e, h => by
    rw [nestedWithin.eq_def] at h
    split at h
    · exact .inl (Except.error.inj h).symm
    · cases v with
      | null | bool | real | str => cases h
      | int n =>
        dsimp only at h
        split at h
        · cases h
        · rename_i hlong
          exact .inr ⟨(Except.error.inj h).symm, hlong⟩
      | arr items =>
        rcases bind_eq_error_iff.mp h with hitems | ⟨_, -, hpure⟩
        · exact (cases_of_nestedItems_eq_error _ items hitems).imp_right fun hlong =>
            ⟨hlong.1, mt hasShortIntegers_arr_iff.mp hlong.2⟩
        · cases hpure
      | obj members =>
        rcases bind_eq_error_iff.mp h with hmembers | ⟨_, -, hpure⟩
        · exact (cases_of_nestedMembers_eq_error _ members hmembers).imp_right fun hlong =>
            ⟨hlong.1, mt hasShortIntegers_obj_iff.mp hlong.2⟩
        · cases hpure
termination_by v => sizeOf v

theorem cases_of_nestedItems_eq_error (room : Option Nat) : ∀ (items : List Json) {e : Failure},
    nestedItems room items = .error e →
      e = .tooDeep .showing ∨ e = .integerTooLong none ∧ ¬∀ v ∈ items, v.hasShortIntegers
  | [], _, h => by cases h
  | v :: rest, e, h => by
    rw [List.forall_mem_cons]
    rcases bind_eq_error_iff.mp h with hfirst | ⟨_, -, h⟩
    · exact (cases_of_nestedWithin_eq_error room v hfirst).imp_right fun hlong =>
        ⟨hlong.1, fun hshort => hlong.2 hshort.1⟩
    · rcases bind_eq_error_iff.mp h with hrest | ⟨_, -, hpure⟩
      · exact (cases_of_nestedItems_eq_error room rest hrest).imp_right fun hlong =>
          ⟨hlong.1, fun hshort => hlong.2 hshort.2⟩
      · cases hpure
termination_by items => sizeOf items

theorem cases_of_nestedMembers_eq_error (room : Option Nat) : ∀ (members : Object) {e : Failure},
    nestedMembers room members = .error e → e = .tooDeep .showing ∨
      e = .integerTooLong none ∧ ¬∀ member ∈ members, member.2.hasShortIntegers
  | [], _, h => by cases h
  | (name, v) :: rest, e, h => by
    rw [List.forall_mem_cons]
    rcases bind_eq_error_iff.mp h with hfirst | ⟨_, -, h⟩
    · exact (cases_of_nestedWithin_eq_error room v hfirst).imp_right fun hlong =>
        ⟨hlong.1, fun hshort => hlong.2 hshort.1⟩
    · rcases bind_eq_error_iff.mp h with hrest | ⟨_, -, hpure⟩
      · exact (cases_of_nestedMembers_eq_error room rest hrest).imp_right fun hlong =>
          ⟨hlong.1, fun hshort => hlong.2 hshort.2⟩
      · cases hpure
termination_by members => sizeOf members

end

end Nested

variable [Machine] {v : Json} {e : Failure}

theorem cases_of_display_eq_error (h : v.display = .error e) :
    e = .tooDeep .showing ∨ e = .integerTooLong none ∧ ¬v.hasShortIntegers := by
  cases v with
  | str s => cases h
  | _ => exact cases_of_nestedWithin_eq_error _ _ h

/-- A value whose integers are short only goes too deep, if it cannot be shown. -/
theorem rejectsValue_of_display (hshort : v.hasShortIntegers) (h : v.display = .error e) :
    e.rejectsValue = false := by
  rcases cases_of_display_eq_error h with rfl | ⟨-, hlong⟩
  · rfl
  · exact absurd hshort hlong

end StepGlue.Json
