import StepGlue.Proofs.Json.RoundTrip

/-!
# Reading what goes too deep

The layout of a value that goes deeper than there is room is refused for that: the readers take all
that stands before the array or object for which no room is left. So what was laid out is never
mistaken for a damaged text.
-/

namespace StepGlue.Json

open StepGlue.Text
open Reader

/-- Whether a reader has met an array or object for which there is no room. -/
def IsTooDeep {α : Type} (outcome : Except ReadError α) : Prop :=
  ∃ container, outcome = .error (.tooDeep container)

theorem IsTooDeep.bind {α β : Type} {outcome : Except ReadError α} (h : IsTooDeep outcome)
    (f : α → Except ReadError β) : IsTooDeep (outcome >>= f) := by
  obtain ⟨container, rfl⟩ := h
  exact ⟨container, rfl⟩

variable [StandIns]

theorem startsValue_layoutBefore (depth : Nat) {v : Json} (hv : v.IsReadable) {text : List Char}
    (htext : EndsNumber text) : StartsValue (layoutBefore depth v text) :=
  startsValue_of_value
    (value_layoutBefore depth none _ v hv (within_none _) (Nat.lt_succ_self _) htext)

/-! ### Readers, one step at a time -/

section Steps

variable {room : Option Nat} {fuel depth : Nat} {s text after : List Char} {v : Json}

theorem isTooDeep_array (hroom : room ≠ some 0) (hstart : StartsValue s)
    (hitems : IsTooDeep (items (room.map (· - 1)) fuel s)) :
    IsTooDeep (value room (fuel + 1) ('[' :: (newLine depth ++ s))) := by
  rw [value, if_neg hroom, skipSpace_newLine_append, hstart.skipSpace_eq]
  obtain ⟨c, rest, rfl, -, hbracket⟩ := hstart
  split
  · rename_i heq
    exact absurd (List.cons.inj heq).1 hbracket
  · exact hitems.bind _

theorem isTooDeep_object (hroom : room ≠ some 0) (hstart : s.head? = some '"')
    (hmembers : IsTooDeep (members (room.map (· - 1)) fuel s)) :
    IsTooDeep (value room (fuel + 1) ('\x7b' :: (newLine depth ++ s))) := by
  obtain ⟨rest, rfl⟩ := List.head?_eq_some_iff.mp hstart
  rw [value, if_neg hroom, skipSpace_newLine_append, skipSpace_cons (by decide)]
  split
  · rename_i heq
    exact absurd (List.cons.inj heq).1 (by decide)
  · exact hmembers.bind _

theorem isTooDeep_items_cons (hvalue : value room fuel s = .ok (v, ',' :: (newLine depth ++ after)))
    (hstart : StartsValue after) (hitems : IsTooDeep (items room fuel after)) :
    IsTooDeep (items room (fuel + 1) s) := by
  rw [items, hvalue]
  simp only [Except.bind, bind, skipSpace_cons (c := ',') (by decide), skipSpace_newLine_append,
    hstart.skipSpace_eq]
  exact hitems.bind _

theorem isTooDeep_members (name : String) (hstart : StartsValue s)
    (hvalue : IsTooDeep (value room fuel s)) :
    IsTooDeep (members room (fuel + 1) (stringText name ++ ':' :: ' ' :: s)) := by
  obtain ⟨body, hstring, hbody⟩ := exists_stringText_append name (':' :: ' ' :: s)
  have hspace : skipSpace (' ' :: s) = s := hstart.skipSpace_eq
  rw [hstring, members, hbody]
  simp only [Except.bind, bind, skipSpace_cons (c := ':') (by decide), hspace]
  exact hvalue.bind _

theorem isTooDeep_members_cons (name : String) (hstart : StartsValue s)
    (hvalue : value room fuel s = .ok (v, ',' :: (newLine depth ++ after)))
    (hafter : after.head? = some '"') (hmembers : IsTooDeep (members room fuel after)) :
    IsTooDeep (members room (fuel + 1) (stringText name ++ ':' :: ' ' :: s)) := by
  obtain ⟨body, hstring, hbody⟩ := exists_stringText_append name (':' :: ' ' :: s)
  have hspace : skipSpace (' ' :: s) = s := hstart.skipSpace_eq
  obtain ⟨rest, rfl⟩ := List.head?_eq_some_iff.mp hafter
  rw [hstring, members, hbody]
  simp only [Except.bind, bind, skipSpace_cons (c := ':') (by decide), hspace, hvalue,
    skipSpace_cons (c := ',') (by decide), skipSpace_newLine_append,
    skipSpace_cons (c := '"') (by decide)]
  exact hmembers.bind _

end Steps

/-! ### The whole layout -/

mutual

theorem isTooDeep_value (depth : Nat) (room : Option Nat) (fuel : Nat) {text : List Char} :
    ∀ v : Json, v.IsReadable → ¬Within room v.depth →
      2 * (layoutBefore depth v text).length < fuel → EndsNumber text →
        IsTooDeep (value room fuel (layoutBefore depth v text))
  | null, _, hdepth, _, _ | bool _, _, hdepth, _, _ | int _, _, hdepth, _, _
  | real _, _, hdepth, _, _ | str _, _, hdepth, _, _ => absurd (within_zero room) hdepth
  | arr [], _, hdepth, hfuel, _ => by
    obtain ⟨fuel, rfl⟩ := Nat.exists_eq_succ_of_ne_zero (Nat.ne_zero_of_lt hfuel)
    have hroom : room = some 0 := not_ne_iff.mp fun hroom =>
      hdepth (within_depth_arr_iff.mpr ⟨hroom, List.forall_mem_nil _⟩)
    rw [layoutBefore, value, if_pos hroom]
    exact ⟨.array, rfl⟩
  | arr (v :: vs), hv, hdepth, hfuel, _ => by
    obtain ⟨fuel, rfl⟩ := Nat.exists_eq_succ_of_ne_zero (Nat.ne_zero_of_lt hfuel)
    have hlength := length_newLine_pos (depth + 1)
    have hreadable := isReadable_arr_iff.mp hv
    rw [layoutBefore] at hfuel ⊢
    simp only [List.length_cons, List.length_append] at hfuel
    by_cases hroom : room = some 0
    · rw [value, if_pos hroom]
      exact ⟨.array, rfl⟩
    · have hitems := isTooDeep_items (depth + 1) depth (room.map (· - 1)) fuel text v vs hreadable
        (fun h => hdepth (within_depth_arr_iff.mpr ⟨hroom, h⟩)) (by omega)
      exact isTooDeep_array hroom (startsValue_layoutBefore _ (hreadable v List.mem_cons_self)
        (endsNumber_itemsBefore (depth + 1) depth vs (']' :: text))) hitems
  | obj [], _, hdepth, hfuel, _ => by
    obtain ⟨fuel, rfl⟩ := Nat.exists_eq_succ_of_ne_zero (Nat.ne_zero_of_lt hfuel)
    have hroom : room = some 0 := not_ne_iff.mp fun hroom =>
      hdepth (within_depth_obj_iff.mpr ⟨hroom, List.forall_mem_nil _⟩)
    rw [layoutBefore, value, if_pos hroom]
    exact ⟨.object, rfl⟩
  | obj ((name, v) :: rest), hv, hdepth, hfuel, _ => by
    obtain ⟨fuel, rfl⟩ := Nat.exists_eq_succ_of_ne_zero (Nat.ne_zero_of_lt hfuel)
    have hlength := length_newLine_pos (depth + 1)
    rw [layoutBefore] at hfuel ⊢
    simp only [List.length_cons, List.length_append] at hfuel
    by_cases hroom : room = some 0
    · rw [value, if_pos hroom]
      exact ⟨.object, rfl⟩
    · have hmembers := isTooDeep_membersBefore (depth + 1) depth (room.map (· - 1)) fuel text name v
        rest (isReadable_obj_iff.mp hv).2
        (fun h => hdepth (within_depth_obj_iff.mpr ⟨hroom, h⟩))
        (by simp only [List.length_cons, List.length_append]; omega)
      exact isTooDeep_object hroom rfl hmembers
termination_by v => sizeOf v

theorem isTooDeep_items (depth outer : Nat) (room : Option Nat) (fuel : Nat) (text : List Char) :
    ∀ (v : Json) (vs : List Json), (∀ w ∈ v :: vs, w.IsReadable) →
      (¬∀ w ∈ v :: vs, Within room w.depth) →
      2 * (layoutBefore depth v (itemsBefore depth vs (newLine outer ++ ']' :: text))).length + 1 <
        fuel →
      IsTooDeep (items room fuel
        (layoutBefore depth v (itemsBefore depth vs (newLine outer ++ ']' :: text))))
  | v, [], hreadable, hdepth, hfuel => by
    obtain ⟨fuel, rfl⟩ := Nat.exists_eq_succ_of_ne_zero (Nat.ne_zero_of_lt hfuel)
    have hfirst : ¬Within room v.depth := fun h => hdepth (List.forall_mem_singleton.mpr h)
    rw [itemsBefore] at hfuel ⊢
    rw [items]
    exact (isTooDeep_value depth room fuel v (hreadable v List.mem_cons_self) hfirst (by omega)
      (endsNumber_newLine_append outer _)).bind _
  | v, w :: ws, hreadable, hdepth, hfuel => by
    obtain ⟨fuel, rfl⟩ := Nat.exists_eq_succ_of_ne_zero (Nat.ne_zero_of_lt hfuel)
    obtain ⟨hv, hlater⟩ := List.forall_mem_cons.mp hreadable
    have hends := endsNumber_itemsBefore depth outer (w :: ws) (']' :: text)
    by_cases hfirst : Within room v.depth
    · -- the first item is read, so it is a later one for which there is no room
      have hlength := length_le_layoutBefore depth
        (itemsBefore depth (w :: ws) (newLine outer ++ ']' :: text)) v
      have hvalue := value_layoutBefore depth room fuel v hv hfirst (by omega) hends
      have hitems := isTooDeep_items depth outer room fuel text w ws hlater
        (fun h => hdepth (List.forall_mem_cons.mpr ⟨hfirst, h⟩))
        (by simp only [itemsBefore, List.length_cons, List.length_append] at hlength hfuel ⊢; omega)
      exact isTooDeep_items_cons hvalue
        (startsValue_layoutBefore depth (hlater w List.mem_cons_self)
          (endsNumber_itemsBefore depth outer ws (']' :: text))) hitems
    · rw [items]
      exact (isTooDeep_value depth room fuel v hv hfirst (by omega) hends).bind _
termination_by v vs => sizeOf v + sizeOf vs

theorem isTooDeep_membersBefore (depth outer : Nat) (room : Option Nat) (fuel : Nat)
    (text : List Char) :
    ∀ (name : String) (v : Json) (rest : Object),
      (∀ member ∈ (name, v) :: rest, member.2.IsReadable) →
      (¬∀ member ∈ (name, v) :: rest, Within room member.2.depth) →
      2 * (stringText name ++ ':' :: ' ' :: layoutBefore depth v
        (membersBefore depth rest (newLine outer ++ '\x7d' :: text))).length + 1 < fuel →
      IsTooDeep (members room fuel (stringText name ++ ':' :: ' ' :: layoutBefore depth v
        (membersBefore depth rest (newLine outer ++ '\x7d' :: text))))
  | name, v, [], hreadable, hdepth, hfuel => by
    obtain ⟨fuel, rfl⟩ := Nat.exists_eq_succ_of_ne_zero (Nat.ne_zero_of_lt hfuel)
    have hv := hreadable (name, v) List.mem_cons_self
    have hends := endsNumber_newLine_append outer ('\x7d' :: text)
    have hfirst : ¬Within room v.depth := fun h => hdepth (List.forall_mem_singleton.mpr h)
    rw [membersBefore] at hfuel ⊢
    simp only [List.length_append, List.length_cons] at hfuel
    exact isTooDeep_members name (startsValue_layoutBefore depth hv hends)
      (isTooDeep_value depth room fuel v hv hfirst (by omega) hends)
  | name, v, (other, w) :: rest, hreadable, hdepth, hfuel => by
    obtain ⟨fuel, rfl⟩ := Nat.exists_eq_succ_of_ne_zero (Nat.ne_zero_of_lt hfuel)
    obtain ⟨hv, hlater⟩ := List.forall_mem_cons.mp hreadable
    have hends := endsNumber_membersBefore depth outer ((other, w) :: rest) ('\x7d' :: text)
    have hstart := startsValue_layoutBefore depth hv hends
    simp only [List.length_append, List.length_cons] at hfuel
    by_cases hfirst : Within room v.depth
    · have hlength := length_le_layoutBefore depth
        (membersBefore depth ((other, w) :: rest) (newLine outer ++ '\x7d' :: text)) v
      have hvalue := value_layoutBefore depth room fuel v hv hfirst (by omega) hends
      have hmembers := isTooDeep_membersBefore depth outer room fuel text other w rest hlater
        (fun h => hdepth (List.forall_mem_cons.mpr ⟨hfirst, h⟩))
        (by
          simp only [membersBefore, List.length_cons, List.length_append] at hlength hfuel ⊢
          omega)
      exact isTooDeep_members_cons name hstart hvalue rfl hmembers
    · exact isTooDeep_members name hstart
        (isTooDeep_value depth room fuel v hv hfirst (by omega) hends)
termination_by _ v rest => sizeOf v + sizeOf rest

end

theorem isTooDeep_readWithin_layout {room : Option Nat} {v : Json} (hv : v.IsReadable)
    (hdepth : ¬Within room v.depth) : IsTooDeep (readWithin room v.layout) := by
  have hvalue := isTooDeep_value 0 room (2 * (layoutBefore 0 v []).length + 2) v hv hdepth
    (by omega) endsNumber_nil
  rw [readWithin, layout, String.toList_ofList,
    (startsValue_layoutBefore 0 hv endsNumber_nil).skipSpace_eq]
  exact hvalue.bind _

/-! ### Values of every depth -/

/-- Arrays inside one another. -/
def tower : Nat → Json
  | 0 => .arr []
  | n + 1 => .arr [tower n]

omit [StandIns] in
theorem levels_tower (leaf n : Nat) : (tower n).levels leaf = n + 1 := by
  induction n with
  | zero => rfl
  | succ n ih => simp [tower, levels, itemsLevels, ih]

omit [StandIns] in
theorem everywhere_tower (integer : Int → Bool) (number : Double → Bool) (text : String → Bool)
    (n : Nat) : (tower n).everywhere integer number text = true := by
  induction n with
  | zero => rfl
  | succ n ih => simp [tower, everywhere, everywhereItems, ih]

omit [StandIns] in
theorem isReadable_tower (n : Nat) : (tower n).IsReadable := by
  refine ⟨?_, everywhere_tower _ _ _ n⟩
  induction n with
  | zero => exact .arr nofun
  | succ n ih => exact .arr (List.forall_mem_singleton.mpr ih)

/-- Only a reader with room for everything reads back all that is laid out. -/
theorem eq_none_of_readWithin_layout {room : Option Nat}
    (h : ∀ v : Json, v.IsReadable → readWithin room v.layout = .ok v) : room = none := by
  cases room with
  | none => rfl
  | some room =>
    have hdeep : ¬Within (some room) (tower room).depth := by
      rw [depth, levels_tower, within_some_iff]
      exact Nat.not_succ_le_self room
    obtain ⟨container, hfails⟩ := isTooDeep_readWithin_layout (isReadable_tower room) hdeep
    cases hfails.symm.trans (h _ (isReadable_tower room))

end StepGlue.Json
