import StepGlue.Proofs.Json.Number
import StepGlue.Proofs.Json.Text
import StepGlue.Proofs.Json.WellFormed

/-!
# Reading what was laid out

The layout of a well formed value is read as that value, if the reader goes deep enough for it and
converts its integers. The readers are followed along the layout: each is given more fuel than twice
the length of what is left, since a container takes two readers and at least two characters.
-/

namespace StepGlue.Json

open StepGlue.Text
open Reader

/-! ### Space -/

theorem skipSpace_newLine_append (depth : Nat) (text : List Char) :
    skipSpace (newLine depth ++ text) = skipSpace text := by
  refine List.dropWhile_append_of_pos fun c hc => ?_
  rcases List.mem_cons.mp hc with rfl | hspace
  · rfl
  · rw [List.eq_of_mem_replicate hspace]
    rfl

theorem skipSpace_cons {c : Char} (hc : ¬isSpace c) (text : List Char) :
    skipSpace (c :: text) = c :: text :=
  List.dropWhile_cons_of_neg hc

theorem length_newLine_pos (depth : Nat) : 0 < (newLine depth).length :=
  Nat.zero_lt_succ _

/-- A number ends at the end of its line. -/
theorem endsNumber_newLine_append (depth : Nat) (text : List Char) :
    EndsNumber (newLine depth ++ text) :=
  endsNumber_cons (by decide)

theorem endsNumber_comma_cons (text : List Char) : EndsNumber (',' :: text) :=
  endsNumber_cons (by decide)

/-! ### Where a value starts -/

/-- Whether a value may start where this text starts: there is no space to skip before it, and it is
no end of an array. -/
def StartsValue (text : List Char) : Prop :=
  ∃ c rest, text = c :: rest ∧ ¬isSpace c ∧ c ≠ ']'

theorem StartsValue.skipSpace_eq {text : List Char} (h : StartsValue text) :
    skipSpace text = text := by
  obtain ⟨c, rest, rfl, hspace, -⟩ := h
  exact skipSpace_cons hspace rest

/-! ### What is left of a layout -/

mutual

theorem length_le_layoutBefore (depth : Nat) (text : List Char) :
    ∀ v, text.length ≤ (layoutBefore depth v text).length
  | null | bool _ | int _ | real _ | str _ => by
    rw [layoutBefore, List.length_append]
    exact Nat.le_add_left _ _
  | arr [] | obj [] => by
    rw [layoutBefore]
    exact Nat.le_add_right _ 2
  | arr (v :: vs) => by
    have hitems := length_le_itemsBefore (depth + 1) (newLine depth ++ ']' :: text) vs
    have hfirst := length_le_layoutBefore (depth + 1)
      (itemsBefore (depth + 1) vs (newLine depth ++ ']' :: text)) v
    simp only [layoutBefore, List.length_cons, List.length_append] at hitems hfirst ⊢
    omega
  | obj ((name, v) :: rest) => by
    have hmembers := length_le_membersBefore (depth + 1) (newLine depth ++ '\x7d' :: text) rest
    have hfirst := length_le_layoutBefore (depth + 1)
      (membersBefore (depth + 1) rest (newLine depth ++ '\x7d' :: text)) v
    simp only [layoutBefore, List.length_cons, List.length_append] at hmembers hfirst ⊢
    omega

theorem length_le_itemsBefore (depth : Nat) (text : List Char) :
    ∀ vs, text.length ≤ (itemsBefore depth vs text).length
  | [] => Nat.le_refl _
  | v :: vs => by
    have hrest := length_le_itemsBefore depth text vs
    have hfirst := length_le_layoutBefore depth (itemsBefore depth vs text) v
    simp only [itemsBefore, List.length_cons, List.length_append]
    omega

theorem length_le_membersBefore (depth : Nat) (text : List Char) :
    ∀ members, text.length ≤ (membersBefore depth members text).length
  | [] => Nat.le_refl _
  | (name, v) :: rest => by
    have hrest := length_le_membersBefore depth text rest
    have hfirst := length_le_layoutBefore depth (membersBefore depth rest text) v
    simp only [membersBefore, List.length_cons, List.length_append]
    omega

end

theorem endsNumber_itemsBefore (depth outer : Nat) (vs : List Json) (text : List Char) :
    EndsNumber (itemsBefore depth vs (newLine outer ++ text)) := by
  cases vs with
  | nil => exact endsNumber_newLine_append outer text
  | cons v vs => exact endsNumber_comma_cons _

theorem endsNumber_membersBefore (depth outer : Nat) (members : Object) (text : List Char) :
    EndsNumber (membersBefore depth members (newLine outer ++ text)) := by
  cases members with
  | nil => exact endsNumber_newLine_append outer text
  | cons member rest => exact endsNumber_comma_cons _

variable [StandIns]

theorem value_eq_malformed {c : Char} (hc : isSpace c ∨ c = ']') (room : Option Nat) (fuel : Nat)
    (rest : List Char) : value room fuel (c :: rest) = .error .malformed := by
  cases fuel with
  | zero => rfl
  | succ fuel =>
    simp only [isSpace, Bool.or_eq_true, beq_iff_eq, or_assoc] at hc
    rcases hc with rfl | rfl | rfl | rfl | rfl <;> rfl

/-- A text off which a value is read starts with that value. -/
theorem startsValue_of_value {room : Option Nat} {fuel : Nat} {text : List Char}
    {result : Json × List Char} (h : value room fuel text = .ok result) : StartsValue text := by
  cases text with
  | nil => cases fuel <;> exact nomatch h
  | cons c rest =>
    by_cases hc : isSpace c ∨ c = ']'
    · rw [value_eq_malformed hc] at h
      exact nomatch h
    · exact ⟨c, rest, rfl, not_or.mp hc⟩

theorem startsValue_of_items {room : Option Nat} {fuel : Nat} {s : List Char}
    {result : List Json × List Char} (h : items room fuel s = .ok result) : StartsValue s := by
  cases fuel with
  | zero => exact nomatch h
  | succ fuel =>
    cases hvalue : value room fuel s with
    | error e =>
      rw [items, hvalue] at h
      exact nomatch h
    | ok first => exact startsValue_of_value hvalue

/-! ### Readers, one step at a time -/

section Steps

variable {room : Option Nat} {fuel depth : Nat} {s text after : List Char}
  {v : Json} {vs : List Json} {pairs : List (String × Json)}

theorem value_of_scalar {result : Json × List Char} (h : scalar s = .ok result) (hfuel : 0 < fuel) :
    value room fuel s = .ok result := by
  obtain ⟨fuel, rfl⟩ := Nat.exists_eq_succ_of_ne_zero hfuel.ne'
  rw [value.eq_def]
  split
  · contradiction
  · exact nomatch h
  · exact nomatch h
  · exact nomatch h
  · exact h

theorem value_stringText (name : String) (hfuel : 0 < fuel) :
    value room fuel (stringText name ++ text) = .ok (.str name, text) := by
  obtain ⟨fuel, rfl⟩ := Nat.exists_eq_succ_of_ne_zero hfuel.ne'
  obtain ⟨body, hstring, hbody⟩ := exists_stringText_append name text
  rw [hstring, value, hbody]
  simp only [Except.bind, bind, pure, Except.pure, String.ofList_toList]

theorem value_array (hroom : room ≠ some 0) (hstart : StartsValue s) (depth : Nat)
    (hitems : items (room.map (· - 1)) fuel s = .ok (vs, text)) :
    value room (fuel + 1) ('[' :: (newLine depth ++ s)) = .ok (.arr vs, text) := by
  rw [value, if_neg hroom, skipSpace_newLine_append, hstart.skipSpace_eq]
  obtain ⟨c, rest, rfl, -, hbracket⟩ := hstart
  split
  · rename_i heq
    exact absurd (List.cons.inj heq).1 hbracket
  · rw [hitems]
    rfl

theorem value_object (hroom : room ≠ some 0) (hstart : s.head? = some '"') (depth : Nat)
    (hmembers : members (room.map (· - 1)) fuel s = .ok (pairs, text)) :
    value room (fuel + 1) ('\x7b' :: (newLine depth ++ s)) =
      .ok (.obj (Object.ofPairs pairs), text) := by
  obtain ⟨rest, rfl⟩ := List.head?_eq_some_iff.mp hstart
  rw [value, if_neg hroom, skipSpace_newLine_append, skipSpace_cons (by decide)]
  split
  · rename_i heq
    exact absurd (List.cons.inj heq).1 (by decide)
  · rw [hmembers]
    rfl

theorem items_last (hvalue : value room fuel s = .ok (v, newLine depth ++ ']' :: text)) :
    items room (fuel + 1) s = .ok ([v], text) := by
  rw [items, hvalue]
  simp only [Except.bind, bind, skipSpace_newLine_append, skipSpace_cons (c := ']') (by decide)]
  rfl

theorem items_cons (hvalue : value room fuel s = .ok (v, ',' :: (newLine depth ++ after)))
    (hstart : StartsValue after) (hitems : items room fuel after = .ok (vs, text)) :
    items room (fuel + 1) s = .ok (v :: vs, text) := by
  rw [items, hvalue]
  simp only [Except.bind, bind, skipSpace_cons (c := ',') (by decide), skipSpace_newLine_append,
    hstart.skipSpace_eq, hitems]
  rfl

theorem members_last (name : String) (hstart : StartsValue s)
    (hvalue : value room fuel s = .ok (v, newLine depth ++ '\x7d' :: text)) :
    members room (fuel + 1) (stringText name ++ ':' :: ' ' :: s) = .ok ([(name, v)], text) := by
  obtain ⟨body, hstring, hbody⟩ := exists_stringText_append name (':' :: ' ' :: s)
  have hspace : skipSpace (' ' :: s) = s := hstart.skipSpace_eq
  rw [hstring, members, hbody]
  simp only [Except.bind, bind, skipSpace_cons (c := ':') (by decide), hspace, hvalue,
    skipSpace_newLine_append, skipSpace_cons (c := '\x7d') (by decide), String.ofList_toList]
  rfl

theorem members_cons (name : String) (hstart : StartsValue s)
    (hvalue : value room fuel s = .ok (v, ',' :: (newLine depth ++ after)))
    (hafter : after.head? = some '"') (hmembers : members room fuel after = .ok (pairs, text)) :
    members room (fuel + 1) (stringText name ++ ':' :: ' ' :: s) =
      .ok ((name, v) :: pairs, text) := by
  obtain ⟨body, hstring, hbody⟩ := exists_stringText_append name (':' :: ' ' :: s)
  have hspace : skipSpace (' ' :: s) = s := hstart.skipSpace_eq
  obtain ⟨rest, rfl⟩ := List.head?_eq_some_iff.mp hafter
  rw [hstring, members, hbody]
  simp only [Except.bind, bind, skipSpace_cons (c := ':') (by decide), hspace, hvalue,
    skipSpace_cons (c := ',') (by decide), skipSpace_newLine_append,
    skipSpace_cons (c := '"') (by decide), hmembers, String.ofList_toList]
  rfl

end Steps

/-! ### The whole layout -/

mutual

theorem value_layoutBefore (depth : Nat) (room : Option Nat) (fuel : Nat) {text : List Char} :
    ∀ v : Json, v.IsReadable → Within room v.depth →
      2 * (layoutBefore depth v text).length < fuel → EndsNumber text →
        value room fuel (layoutBefore depth v text) = .ok (v, text)
  | null, _, _, hfuel, _ | bool true, _, _, hfuel, _ | bool false, _, _, hfuel, _ =>
    value_of_scalar rfl (Nat.zero_lt_of_lt hfuel)
  | int n, hv, _, hfuel, htext =>
    value_of_scalar (scalar_int (of_decide_eq_true hv.hasShortIntegers) htext)
      (Nat.zero_lt_of_lt hfuel)
  | real x, hv, _, hfuel, htext => by
    cases hv.wellFormed with
    | real hx => exact value_of_scalar (scalar_real hx htext) (Nat.zero_lt_of_lt hfuel)
  | str s, _, _, hfuel, _ => value_stringText s (Nat.zero_lt_of_lt hfuel)
  | arr [], _, hdepth, hfuel, _ => by
    obtain ⟨fuel, rfl⟩ := Nat.exists_eq_succ_of_ne_zero (Nat.ne_zero_of_lt hfuel)
    obtain ⟨hroom, -⟩ := within_depth_arr_iff.mp hdepth
    rw [layoutBefore, value, if_neg hroom, skipSpace_cons (by decide)]
    rfl
  | arr (v :: vs), hv, hdepth, hfuel, _ => by
    obtain ⟨fuel, rfl⟩ := Nat.exists_eq_succ_of_ne_zero (Nat.ne_zero_of_lt hfuel)
    obtain ⟨hroom, hdepths⟩ := within_depth_arr_iff.mp hdepth
    -- the bracket and the new line are characters that pay for the fuel of the step
    have hlength := length_newLine_pos (depth + 1)
    rw [layoutBefore] at hfuel ⊢
    simp only [List.length_cons, List.length_append] at hfuel
    have hitems := items_layoutBefore (depth + 1) depth (room.map (· - 1)) fuel text v vs
      (isReadable_arr_iff.mp hv) hdepths (by omega)
    exact value_array hroom (startsValue_of_items hitems) (depth + 1) hitems
  | obj [], _, hdepth, hfuel, _ => by
    obtain ⟨fuel, rfl⟩ := Nat.exists_eq_succ_of_ne_zero (Nat.ne_zero_of_lt hfuel)
    obtain ⟨hroom, -⟩ := within_depth_obj_iff.mp hdepth
    rw [layoutBefore, value, if_neg hroom, skipSpace_cons (by decide)]
    rfl
  | obj ((name, v) :: rest), hv, hdepth, hfuel, _ => by
    obtain ⟨fuel, rfl⟩ := Nat.exists_eq_succ_of_ne_zero (Nat.ne_zero_of_lt hfuel)
    obtain ⟨hnodup, hreadable⟩ := isReadable_obj_iff.mp hv
    obtain ⟨hroom, hdepths⟩ := within_depth_obj_iff.mp hdepth
    have hlength := length_newLine_pos (depth + 1)
    rw [layoutBefore] at hfuel ⊢
    simp only [List.length_cons, List.length_append] at hfuel
    have hmembers := members_layoutBefore (depth + 1) depth (room.map (· - 1)) fuel text name v rest
      hreadable hdepths (by simp only [List.length_cons, List.length_append]; omega)
    rw [value_object hroom rfl (depth + 1) hmembers, Object.ofPairs, Object.update,
      PairList.update_eq_append hnodup, List.nil_append]
termination_by v => sizeOf v

theorem items_layoutBefore (depth outer : Nat) (room : Option Nat) (fuel : Nat) (text : List Char) :
    ∀ (v : Json) (vs : List Json), (∀ w ∈ v :: vs, w.IsReadable) →
      (∀ w ∈ v :: vs, Within room w.depth) →
      2 * (layoutBefore depth v (itemsBefore depth vs (newLine outer ++ ']' :: text))).length + 1 <
        fuel →
      items room fuel (layoutBefore depth v (itemsBefore depth vs (newLine outer ++ ']' :: text))) =
        .ok (v :: vs, text)
  | v, [], hreadable, hdepth, hfuel => by
    obtain ⟨fuel, rfl⟩ := Nat.exists_eq_succ_of_ne_zero (Nat.ne_zero_of_lt hfuel)
    rw [itemsBefore] at hfuel ⊢
    exact items_last (value_layoutBefore depth room fuel v (hreadable v List.mem_cons_self)
      (hdepth v List.mem_cons_self) (by omega) (endsNumber_newLine_append outer _))
  | v, w :: ws, hreadable, hdepth, hfuel => by
    obtain ⟨fuel, rfl⟩ := Nat.exists_eq_succ_of_ne_zero (Nat.ne_zero_of_lt hfuel)
    have hlength := length_le_layoutBefore depth
      (itemsBefore depth (w :: ws) (newLine outer ++ ']' :: text)) v
    have hvalue := value_layoutBefore depth room fuel v
      (hreadable v List.mem_cons_self) (hdepth v List.mem_cons_self) (by omega)
      (endsNumber_itemsBefore depth outer (w :: ws) (']' :: text))
    have hrest := items_layoutBefore depth outer room fuel text w ws
      (fun u hu => hreadable u (List.mem_cons_of_mem _ hu))
      (fun u hu => hdepth u (List.mem_cons_of_mem _ hu))
      (by simp only [itemsBefore, List.length_cons, List.length_append] at hlength hfuel ⊢; omega)
    exact items_cons hvalue (startsValue_of_items hrest) hrest
termination_by v vs => sizeOf v + sizeOf vs

theorem members_layoutBefore (depth outer : Nat) (room : Option Nat) (fuel : Nat)
    (text : List Char) :
    ∀ (name : String) (v : Json) (rest : Object),
      (∀ member ∈ (name, v) :: rest, member.2.IsReadable) →
      (∀ member ∈ (name, v) :: rest, Within room member.2.depth) →
      2 * (stringText name ++ ':' :: ' ' :: layoutBefore depth v
        (membersBefore depth rest (newLine outer ++ '\x7d' :: text))).length + 1 < fuel →
      members room fuel (stringText name ++ ':' :: ' ' :: layoutBefore depth v
        (membersBefore depth rest (newLine outer ++ '\x7d' :: text))) =
        .ok ((name, v) :: rest, text)
  | name, v, [], hreadable, hdepth, hfuel => by
    obtain ⟨fuel, rfl⟩ := Nat.exists_eq_succ_of_ne_zero (Nat.ne_zero_of_lt hfuel)
    rw [membersBefore] at hfuel ⊢
    simp only [List.length_append, List.length_cons] at hfuel
    have hvalue := value_layoutBefore depth room fuel v
      (hreadable _ List.mem_cons_self) (hdepth _ List.mem_cons_self)
      (by omega)
      (endsNumber_newLine_append outer ('\x7d' :: text))
    exact members_last name (startsValue_of_value hvalue) hvalue
  | name, v, (other, w) :: rest, hreadable, hdepth, hfuel => by
    obtain ⟨fuel, rfl⟩ := Nat.exists_eq_succ_of_ne_zero (Nat.ne_zero_of_lt hfuel)
    have hlength := length_le_layoutBefore depth
      (membersBefore depth ((other, w) :: rest) (newLine outer ++ '\x7d' :: text)) v
    have hvalue := value_layoutBefore depth room fuel v
      (hreadable _ List.mem_cons_self) (hdepth _ List.mem_cons_self)
      (by simp only [List.length_append, List.length_cons] at hfuel; omega)
      (endsNumber_membersBefore depth outer ((other, w) :: rest) ('\x7d' :: text))
    have hrest := members_layoutBefore depth outer room fuel text other w rest
      (fun member hmem => hreadable member (List.mem_cons_of_mem _ hmem))
      (fun member hmem => hdepth member (List.mem_cons_of_mem _ hmem))
      (by
        simp only [membersBefore, List.length_cons, List.length_append] at hlength hfuel ⊢
        omega)
    exact members_cons name (startsValue_of_value hvalue) hvalue rfl hrest
termination_by _ v rest => sizeOf v + sizeOf rest

end

theorem readWithin_layout {room : Option Nat} {v : Json} (hv : v.IsReadable)
    (hdepth : Within room v.depth) : readWithin room v.layout = .ok v := by
  have hvalue := value_layoutBefore 0 room (2 * (layoutBefore 0 v []).length + 2) v hv hdepth
    (by omega) endsNumber_nil
  rw [readWithin, layout, String.toList_ofList, (startsValue_of_value hvalue).skipSpace_eq, hvalue]
  rfl

end StepGlue.Json
