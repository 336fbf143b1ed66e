import StepGlue.Proofs.Method.Registry
import StepGlue.Proofs.Step.SlotName

/-!
# Names within a kind

Names that are counted out for one kind differ. So it is the placeholders that decide whether the
parameters of each kind have names of their own: no two may spell the same name, and none may spell
a name that is counted out for another (`namesApart_parameters_iff`).
-/

namespace StepGlue

open Text

namespace Parameter

/-- Parameters of one kind have different names. -/
def NamesApart (ps : List Parameter) : Prop :=
  ps.Pairwise fun p q => p.kind = q.kind → p.name ≠ q.name

instance : DecidablePred NamesApart :=
  fun ps => inferInstanceAs (Decidable (ps.Pairwise fun p q => p.kind = q.kind → p.name ≠ q.name))

/-- What the parameters of a kind stand for, in order. -/
def valuesOf (kind : Kind) (ps : List Parameter) : List (List Char) :=
  (ps.filter (·.kind = kind)).map fun p => p.value.toList

theorem namesApart_iff {ps : List Parameter} :
    NamesApart ps ↔ ∀ kind, ((ps.filter (·.kind = kind)).map Parameter.name).Nodup := by
  simp only [NamesApart, List.Nodup, List.pairwise_map, List.pairwise_filter, decide_eq_true_eq]
  constructor
  · intro h kind
    exact h.imp fun hne hp hq => hne (hp.trans hq.symm)
  · intro h
    rw [List.pairwise_iff_getElem]
    intro i j hi hj hlt hkind
    exact List.pairwise_iff_getElem.mp (h ps[j].kind) i j hi hj hlt hkind rfl

end Parameter

namespace Segment

open Parameter

variable {kind : Kind} {contents : List (List Char)}

/-- Contents of placeholders, in order, none of which gives a name that another one gives. -/
structure SpellsApart (contents : List (List Char)) : Prop where
  differ : contents.Pairwise fun v w => spelledName v = spelledName w → spelledName v = []
  /-- None spells the name that is counted out for one that spells nothing. -/
  uncounted : ∀ i (_ : i < contents.length), spelledName contents[i] = [] →
    ∀ w ∈ contents, String.ofList (spelledName w) ≠ "arg" ++ toString (i + 1)

instance : DecidablePred SpellsApart :=
  fun contents => decidable_of_iff
    ((contents.Pairwise fun v w => spelledName v = spelledName w → spelledName v = []) ∧
      ∀ i (_ : i < contents.length), spelledName contents[i] = [] →
        ∀ w ∈ contents, String.ofList (spelledName w) ≠ "arg" ++ toString (i + 1))
    ⟨fun h => ⟨h.1, h.2⟩, fun h => ⟨h.differ, h.uncounted⟩⟩

/-- The names of a kind are those of its values by their places among these. -/
def namesOf (kind : Kind) (values : List (List Char)) : List String :=
  values.mapIdx fun i value => slotName kind (i + 1) value

theorem map_name_filter_parametersAfter (kind : Kind) (seen : List Kind) (segments : List Segment) :
    ((parametersAfter seen segments).filter (·.kind = kind)).map Parameter.name =
      (valuesOf kind (parametersAfter seen segments)).mapIdx
        fun i value => slotName kind (seen.count kind + i + 1) value := by
  induction segments generalizing seen with
  | nil => rfl
  | cons segment segments ih =>
    cases segment with
    | literal text => exact ih seen
    | slot found value =>
      rw [valuesOf, parametersAfter]
      by_cases h : found = kind
      · subst h
        rw [List.filter_cons_of_pos (by simp), List.map_cons, List.map_cons, ih, List.mapIdx_cons,
          String.toList_ofList, List.count_cons_self, valuesOf]
        simp only [Nat.add_zero, Nat.add_right_comm _ 1]
        rfl
      · rw [List.filter_cons_of_neg (by simpa using h), ih, List.count_cons_of_ne h, valuesOf]

theorem map_name_filter_parameters (kind : Kind) (segments : List Segment) :
    ((parameters segments).filter (·.kind = kind)).map Parameter.name =
      namesOf kind (valuesOf kind (parameters segments)) := by
  rw [parameters, map_name_filter_parametersAfter, namesOf]
  simp only [List.count_nil, Nat.zero_add]

theorem nodup_namesOf_of_counted (h : kind ≠ .placeholder) (values : List (List Char)) :
    (namesOf kind values).Nodup := by
  rw [List.Nodup, List.pairwise_iff_getElem]
  intro i j hi hj hlt heq
  simp only [namesOf, List.getElem_mapIdx, slotName_of_counted h] at heq
  have hordinal := Registry.numbered_inj heq
  omega

/-! ### Placeholders -/

theorem SpellsApart.slotName_ne (h : SpellsApart contents) {i j : Nat} (hi : i < contents.length)
    (hj : j < contents.length) (hlt : i < j) :
    slotName .placeholder (i + 1) contents[i] ≠ slotName .placeholder (j + 1) contents[j] := by
  intro heq
  -- Two counted names differ in their numbers, and a counted one is spelled on neither side of it.
  by_cases hv : spelledName contents[i] = []
  · rw [slotName_of_not_spelled hv] at heq
    by_cases hw : spelledName contents[j] = []
    · rw [slotName_of_not_spelled hw] at heq
      have hordinal := Registry.numbered_inj heq
      omega
    · rw [slotName_of_spelled hw] at heq
      exact h.uncounted i hi hv _ (List.getElem_mem hj) heq.symm
  · rw [slotName_of_spelled hv] at heq
    by_cases hw : spelledName contents[j] = []
    · rw [slotName_of_not_spelled hw] at heq
      exact h.uncounted j hj hw _ (List.getElem_mem hi) heq
    · rw [slotName_of_spelled hw, String.ofList_inj] at heq
      exact hv (List.pairwise_iff_getElem.mp h.differ i j hi hj hlt heq)

/-- Placeholders with names of their own spell no name that is another one's. -/
theorem spellsApart_of_nodup (h : (namesOf .placeholder contents).Nodup) :
    SpellsApart contents := by
  have hplace : ∀ {i j : Nat} (hi : i < contents.length) (hj : j < contents.length),
      slotName .placeholder (i + 1) contents[i] = slotName .placeholder (j + 1) contents[j] →
        i = j := by
    intro i j hi hj heq
    have hlength : (namesOf .placeholder contents).length = contents.length := List.length_mapIdx
    have hnames : (namesOf .placeholder contents)[i] = (namesOf .placeholder contents)[j] := by
      simpa [namesOf] using heq
    exact h.getElem_inj_iff.mp hnames
  constructor
  · rw [List.pairwise_iff_getElem]
    intro i j hi hj hlt heq
    by_contra hspelled
    have hother : spelledName contents[j] ≠ [] := heq ▸ hspelled
    have hij := hplace hi hj (by rw [slotName_of_spelled hspelled, slotName_of_spelled hother, heq])
    omega
  · intro i hi hempty w hw heq
    obtain ⟨j, hj, rfl⟩ := List.mem_iff_getElem.mp hw
    have hspelled : spelledName contents[j] ≠ [] := by
      intro hnil
      rw [hnil] at heq
      exact absurd (congrArg String.toList heq) (by simp)
    have hnames : slotName .placeholder (i + 1) contents[i] =
        slotName .placeholder (j + 1) contents[j] := by
      rw [slotName_of_not_spelled hempty, slotName_of_spelled hspelled, heq]
    obtain rfl := hplace hi hj hnames
    exact hspelled hempty

theorem nodup_namesOf_placeholder_iff :
    (namesOf .placeholder contents).Nodup ↔ SpellsApart contents := by
  constructor
  · exact spellsApart_of_nodup
  · intro h
    rw [List.Nodup, List.pairwise_iff_getElem]
    intro i j hi hj hlt
    rw [namesOf, List.length_mapIdx] at hi hj
    simpa [namesOf] using h.slotName_ne hi hj hlt

theorem namesApart_parameters_iff (segments : List Segment) :
    NamesApart (parameters segments) ↔
      SpellsApart (valuesOf .placeholder (parameters segments)) := by
  rw [namesApart_iff, ← nodup_namesOf_placeholder_iff]
  constructor
  · intro h
    rw [← map_name_filter_parameters]
    exact h .placeholder
  · intro h kind
    rw [map_name_filter_parameters]
    by_cases hkind : kind = .placeholder
    · exact hkind ▸ h
    · exact nodup_namesOf_of_counted hkind _

end Segment

end StepGlue
