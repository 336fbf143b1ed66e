import StepGlue.Json.Basic
import StepGlue.Proofs.Number.Double
import StepGlue.Proofs.PairList
import StepGlue.Proofs.Machine

/-!
# Well formed JSON values

The values that stand for JSON values: no name stands twice in an object, and real numbers are in
their one canonical form. The height of a value, and what is asked of all its parts, are told by its
elements.
-/

namespace StepGlue.Json

inductive WellFormed : Json → Prop
  | null : WellFormed null
  | bool (b : Bool) : WellFormed (bool b)
  | int (n : Int) : WellFormed (int n)
  | real {x : Double} (hx : x.IsCanonical) : WellFormed (real x)
  | str (s : String) : WellFormed (str s)
  | arr {items : List Json} (hitems : ∀ v ∈ items, WellFormed v) : WellFormed (arr items)
  | obj {members : Object} (hnodup : (PairList.keys members).Nodup)
      (hmembers : ∀ member ∈ members, WellFormed member.2) : WellFormed (obj members)

theorem wellFormed_arr_iff {items : List Json} :
    (arr items).WellFormed ↔ ∀ v ∈ items, v.WellFormed :=
  ⟨fun | .arr hitems => hitems, .arr⟩

theorem wellFormed_obj_iff {members : Object} :
    (obj members).WellFormed ↔
      (PairList.keys members).Nodup ∧ ∀ member ∈ members, member.2.WellFormed :=
  ⟨fun | .obj hnodup hmembers => ⟨hnodup, hmembers⟩, fun h => .obj h.1 h.2⟩

namespace WellFormed

variable {o changes : Object}

theorem nodup (h : (Json.obj o).WellFormed) : (PairList.keys o).Nodup :=
  (wellFormed_obj_iff.mp h).1

theorem member (h : (Json.obj o).WellFormed) : ∀ member ∈ o, member.2.WellFormed :=
  (wellFormed_obj_iff.mp h).2

theorem update (ho : (Json.obj o).WellFormed) (hchanges : (Json.obj changes).WellFormed) :
    (Json.obj (o.update changes)).WellFormed :=
  .obj (PairList.nodup_keys_update ho.nodup) (PairList.forall_mem_update ho.member hchanges.member)

theorem set (ho : (Json.obj o).WellFormed) {v : Json} (hv : v.WellFormed) (name : String) :
    (Json.obj (o.set name v)).WellFormed := by
  refine .obj (PairList.nodup_keys_set ho.nodup) fun member hmem => ?_
  rcases PairList.mem_set hmem with rfl | hmember
  · exact hv
  · exact ho.member member hmember

theorem filter (ho : (Json.obj o).WellFormed) (keep : String × Json → Bool) :
    (Json.obj (o.filter keep)).WellFormed :=
  .obj (ho.nodup.sublist (List.filter_sublist.map Prod.fst))
    fun member hmem => ho.member member (List.mem_of_mem_filter hmem)

end WellFormed

/-! ### Levels -/

section Levels

variable {limit : Option Nat} {leaf : Nat}

theorem within_itemsLevels_iff {items : List Json} {n : Nat} :
    Within limit (itemsLevels leaf items + n) ↔
      Within limit n ∧ ∀ v ∈ items, Within limit (v.levels leaf + n) := by
  induction items with
  | nil => simp [itemsLevels]
  | cons v items ih =>
    have hle : Within limit (v.levels leaf + n) → Within limit n :=
      fun h => h.of_le (Nat.le_add_left _ _)
    rw [itemsLevels, ← Nat.add_max_add_right, within_max_iff, ih, List.forall_mem_cons]
    exact ⟨fun h => ⟨h.2.1, h.1, h.2.2⟩, fun h => ⟨h.2.1, h.1, h.2.2⟩⟩

theorem within_membersLevels_iff {members : Object} {n : Nat} :
    Within limit (membersLevels leaf members + n) ↔
      Within limit n ∧ ∀ member ∈ members, Within limit (member.2.levels leaf + n) := by
  induction members with
  | nil => simp [membersLevels]
  | cons head members ih =>
    obtain ⟨name, v⟩ := head
    rw [membersLevels, ← Nat.add_max_add_right, within_max_iff, ih, List.forall_mem_cons]
    exact ⟨fun h => ⟨h.2.1, h.1, h.2.2⟩, fun h => ⟨h.2.1, h.1, h.2.2⟩⟩

/-- The members of an object stand one level below it. -/
theorem within_levels_obj_iff {members : Object} {n : Nat} :
    Within limit ((obj members).levels leaf + n) ↔
      Within limit (n + 1) ∧ ∀ member ∈ members, Within limit (member.2.levels leaf + (n + 1)) := by
  rw [levels, Nat.add_right_comm, Nat.add_assoc, within_membersLevels_iff]

theorem within_obj_iff {members : Object} :
    Within limit ((obj members).levels leaf) ↔
      Within limit 1 ∧ ∀ member ∈ members, Within limit (member.2.levels leaf + 1) :=
  within_levels_obj_iff (n := 0)

end Levels

mutual

theorem levels_mono {leaf leaf' : Nat} (h : leaf ≤ leaf') :
    ∀ v : Json, v.levels leaf ≤ v.levels leaf'
  | null | bool _ | int _ | real _ | str _ => h
  | arr items => Nat.succ_le_succ (itemsLevels_mono h items)
  | obj members => Nat.succ_le_succ (membersLevels_mono h members)

theorem itemsLevels_mono {leaf leaf' : Nat} (h : leaf ≤ leaf') :
    ∀ items, itemsLevels leaf items ≤ itemsLevels leaf' items
  | [] => Nat.le_refl 0
  | v :: vs => max_le_max (levels_mono h v) (itemsLevels_mono h vs)

theorem membersLevels_mono {leaf leaf' : Nat} (h : leaf ≤ leaf') :
    ∀ members, membersLevels leaf members ≤ membersLevels leaf' members
  | [] => Nat.le_refl 0
  | (_, v) :: rest => max_le_max (levels_mono h v) (membersLevels_mono h rest)

end

/-- An array takes one off the room, and leaves the rest to its items. -/
theorem within_depth_arr_iff {limit : Option Nat} {items : List Json} :
    Within limit (arr items).depth ↔
      limit ≠ some 0 ∧ ∀ v ∈ items, Within (limit.map (· - 1)) v.depth := by
  have hitems : Within (limit.map (· - 1)) (itemsLevels 0 items + 0) ↔ _ := within_itemsLevels_iff
  simp only [Nat.add_zero, within_zero, true_and] at hitems
  rw [depth, levels, within_succ_iff, hitems]
  rfl

theorem within_depth_obj_iff {limit : Option Nat} {members : Object} :
    Within limit (obj members).depth ↔
      limit ≠ some 0 ∧ ∀ member ∈ members, Within (limit.map (· - 1)) member.2.depth := by
  have hmembers : Within (limit.map (· - 1)) (membersLevels 0 members + 0) ↔ _ :=
    within_membersLevels_iff
  simp only [Nat.add_zero, within_zero, true_and] at hmembers
  rw [depth, levels, within_succ_iff, hmembers]
  rfl

theorem depth_le_height (v : Json) : v.depth ≤ v.height :=
  levels_mono (Nat.zero_le 1) v

/-! ### What holds of all parts -/

section Everywhere

variable {integer : Int → Bool} {number : Double → Bool} {text : String → Bool}

theorem everywhere_arr_iff {items : List Json} :
    everywhere integer number text (arr items) ↔
      ∀ v ∈ items, everywhere integer number text v := by
  rw [everywhere]
  induction items with
  | nil => simp [everywhereItems]
  | cons v items ih => simp [everywhereItems, ih]

theorem everywhere_obj_iff {members : Object} :
    everywhere integer number text (obj members) ↔
      ∀ member ∈ members, text member.1 ∧ everywhere integer number text member.2 := by
  rw [everywhere]
  induction members with
  | nil => simp [everywhereMembers]
  | cons head members ih =>
    obtain ⟨name, v⟩ := head
    simp [everywhereMembers, ih]

end Everywhere

theorem hasShortIntegers_arr_iff {items : List Json} :
    (arr items).hasShortIntegers ↔ ∀ v ∈ items, v.hasShortIntegers :=
  everywhere_arr_iff

theorem hasShortIntegers_obj_iff {members : Object} :
    (obj members).hasShortIntegers ↔ ∀ member ∈ members, member.2.hasShortIntegers := by
  rw [hasShortIntegers, everywhere_obj_iff]
  simp only [true_and]

/-- What the reader can take back: a well formed value whose integers it converts. -/
structure IsReadable (v : Json) : Prop where
  wellFormed : v.WellFormed
  hasShortIntegers : v.hasShortIntegers

theorem isReadable_arr_iff {items : List Json} :
    (arr items).IsReadable ↔ ∀ v ∈ items, v.IsReadable := by
  constructor
  · rintro ⟨hwell, hshort⟩ v hv
    exact ⟨wellFormed_arr_iff.mp hwell v hv, hasShortIntegers_arr_iff.mp hshort v hv⟩
  · intro h
    exact ⟨.arr fun v hv => (h v hv).wellFormed,
      hasShortIntegers_arr_iff.mpr fun v hv => (h v hv).hasShortIntegers⟩

theorem isReadable_obj_iff {members : Object} :
    (obj members).IsReadable ↔
      (PairList.keys members).Nodup ∧ ∀ member ∈ members, member.2.IsReadable := by
  constructor
  · rintro ⟨hwell, hshort⟩
    exact ⟨hwell.nodup, fun member hmember =>
      ⟨hwell.member member hmember, hasShortIntegers_obj_iff.mp hshort member hmember⟩⟩
  · rintro ⟨hnodup, h⟩
    exact ⟨.obj hnodup fun member hmember => (h member hmember).wellFormed,
      hasShortIntegers_obj_iff.mpr fun member hmember => (h member hmember).hasShortIntegers⟩

variable [Text.StandIns]

theorem isEncodable_obj_iff {members : Object} :
    (obj members).isEncodable ↔
      ∀ member ∈ members, Text.isEncodable member.1 ∧ member.2.isEncodable :=
  everywhere_obj_iff

end StepGlue.Json
