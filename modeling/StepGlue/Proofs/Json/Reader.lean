import StepGlue.Proofs.Except
import StepGlue.Proofs.Json.Number
import StepGlue.Proofs.Json.WellFormed

/-!
# What the reader gives

Whatever a text holds, a value that is read from it is well formed, has integers that can be written
and goes no deeper than there was room: real numbers are rounded to double precision, of members
with one name the last is taken, and integers with more digits are refused.
-/

namespace StepGlue.Json

open StepGlue.Text
open Reader

theorem fst_eq_of_ok {α β ε : Type} {a a' : α} {b b' : β}
    (h : (.ok (a, b) : Except ε (α × β)) = .ok (a', b')) : a = a' :=
  (Prod.mk.inj (Except.ok.inj h)).1

/-- What a reader gives: a readable value that goes no deeper than there is room. -/
structure IsRead (room : Option Nat) (v : Json) : Prop where
  isReadable : v.IsReadable
  within_depth : Within room v.depth

/-! ### Numbers -/

section Numbers

variable {room : Option Nat}

theorem digitsValue_lt {digits : List Char} (h : ∀ c ∈ digits, c.isDigit) :
    digitsValue digits < 10 ^ digits.length := by
  induction digits using List.reverseRecOn with
  | nil => exact Nat.one_pos
  | append_singleton digits c ih =>
    obtain ⟨hdigits, hc⟩ := List.forall_mem_append.mp h
    have hlt := ih hdigits
    have hvalue : c.toNat - 48 < 10 := by
      have hdigit := hc c (List.mem_singleton_self c)
      simp only [Char.isDigit, Bool.and_eq_true, decide_eq_true_eq] at hdigit
      have hle : c.toNat ≤ 57 := hdigit.2
      omega
    rw [digitsValue, List.foldl_append, ← digitsValue, List.length_append, List.length_singleton,
      pow_succ]
    simp only [List.foldl_cons, List.foldl_nil]
    omega

theorem isDigit_of_mem_takeWhile {s : List Char} : ∀ c ∈ s.takeWhile Char.isDigit, c.isDigit :=
  fun _ hc => List.mem_takeWhile_imp hc

theorem isRead_real {x : Double} (hx : x.IsCanonical) : IsRead room (.real x) :=
  ⟨⟨.real hx, rfl⟩, within_zero room⟩

theorem isRead_int {negative : Bool} {digits : List Char} (hdigits : ∀ c ∈ digits, c.isDigit)
    (hne : digits ≠ []) (hshort : digits.length ≤ maxDigits) :
    IsRead room (.int (if negative then -(digitsValue digits : ℤ) else digitsValue digits)) := by
  refine ⟨⟨.int _, decide_eq_true ?_⟩, within_zero room⟩
  have habs : (if negative then -(digitsValue digits : ℤ) else digitsValue digits).natAbs =
      digitsValue digits := by
    cases negative <;> simp
  rw [habs]
  exact (Nat.length_toDigits_le_iff (by norm_num) (List.length_pos_of_ne_nil hne)).mpr
    (digitsValue_lt hdigits) |>.trans hshort

theorem isRead_of_unsigned {negative : Bool} {s rest : List Char} {v : Json}
    (h : unsigned negative s = .ok (v, rest)) : IsRead room v := by
  have hdigits : ∀ c ∈ (if s.head? = some '0' then ['0'] else s.takeWhile Char.isDigit),
      c.isDigit := by
    split
    · exact List.forall_mem_singleton.mpr rfl
    · exact isDigit_of_mem_takeWhile
  rw [unsigned] at h
  dsimp only at h
  generalize (if s.head? = some '0' then ['0'] else s.takeWhile Char.isDigit) = whole at h hdigits
  split at h
  · cases h
  · rename_i hne
    split at h
    · split at h
      · split at h
        · cases h
        · rename_i hshort
          obtain rfl := fst_eq_of_ok h
          exact isRead_int hdigits (by simpa using hne) (not_lt.mp hshort)
      · obtain rfl := fst_eq_of_ok h
        exact isRead_real (Double.isCanonical_ofDecimal _ _ _)
    · obtain rfl := fst_eq_of_ok h
      exact isRead_real (Double.isCanonical_ofDecimal _ _ _)

theorem isRead_of_scalar {s rest : List Char} {v : Json} (h : scalar s = .ok (v, rest)) :
    IsRead room v := by
  rw [scalar.eq_def] at h
  split at h
  · obtain rfl := fst_eq_of_ok h
    exact ⟨⟨.null, rfl⟩, within_zero room⟩
  · obtain rfl := fst_eq_of_ok h
    exact ⟨⟨.bool true, rfl⟩, within_zero room⟩
  · obtain rfl := fst_eq_of_ok h
    exact ⟨⟨.bool false, rfl⟩, within_zero room⟩
  · obtain rfl := fst_eq_of_ok h
    exact isRead_real trivial
  · obtain rfl := fst_eq_of_ok h
    exact isRead_real trivial
  · obtain rfl := fst_eq_of_ok h
    exact isRead_real trivial
  · exact isRead_of_unsigned h
  · exact isRead_of_unsigned h

end Numbers

/-! ### Values -/

section Values

variable {room : Option Nat}

theorem isRead_arr {vs : List Json} (hroom : room ≠ some 0)
    (h : ∀ v ∈ vs, IsRead (room.map (· - 1)) v) : IsRead room (.arr vs) where
  isReadable := isReadable_arr_iff.mpr fun v hv => (h v hv).isReadable
  within_depth := within_depth_arr_iff.mpr ⟨hroom, fun v hv => (h v hv).within_depth⟩

theorem isRead_ofPairs {pairs : List (String × Json)} (hroom : room ≠ some 0)
    (h : ∀ member ∈ pairs, IsRead (room.map (· - 1)) member.2) :
    IsRead room (.obj (Object.ofPairs pairs)) := by
  have hmembers : ∀ member ∈ Object.ofPairs pairs, IsRead (room.map (· - 1)) member.2 :=
    PairList.forall_mem_update (List.forall_mem_nil _) h
  constructor
  · exact isReadable_obj_iff.mpr ⟨PairList.nodup_keys_update List.nodup_nil,
      fun member hmem => (hmembers member hmem).isReadable⟩
  · exact within_depth_obj_iff.mpr ⟨hroom, fun member hmem => (hmembers member hmem).within_depth⟩

end Values

variable [StandIns]

/-- What the readers give with some fuel goes no deeper than there is room. -/
structure GivesRead (fuel : Nat) : Prop where
  value : ∀ {room s v rest}, value room fuel s = .ok (v, rest) → IsRead room v
  items : ∀ {room s vs rest}, items room fuel s = .ok (vs, rest) → ∀ v ∈ vs, IsRead room v
  members : ∀ {room s pairs rest}, members room fuel s = .ok (pairs, rest) →
    ∀ member ∈ pairs, IsRead room member.2

section Step

variable {fuel : Nat} {room : Option Nat} {s rest : List Char}

theorem GivesRead.value_succ (ih : GivesRead fuel) {v : Json}
    (h : Reader.value room (fuel + 1) s = .ok (v, rest)) : IsRead room v := by
  rw [Reader.value.eq_def] at h
  split at h
  · contradiction
  · obtain ⟨⟨cs, after⟩, -, hv⟩ := bind_eq_ok_iff.mp h
    obtain rfl := fst_eq_of_ok hv
    exact ⟨⟨.str _, rfl⟩, within_zero room⟩
  · split at h
    · exact nomatch h
    · rename_i hroom
      split at h
      · obtain rfl := fst_eq_of_ok h
        exact isRead_arr hroom (List.forall_mem_nil _)
      · obtain ⟨⟨vs, after⟩, hvs, hv⟩ := bind_eq_ok_iff.mp h
        obtain rfl := fst_eq_of_ok hv
        obtain rfl := Nat.succ.inj ‹_›
        exact isRead_arr hroom (ih.items hvs)
  · split at h
    · exact nomatch h
    · rename_i hroom
      split at h
      · obtain rfl := fst_eq_of_ok h
        have hnone : ∀ member ∈ ([] : Object), IsRead (room.map (· - 1)) member.2 :=
          List.forall_mem_nil _
        exact isRead_ofPairs hroom hnone
      · obtain ⟨⟨pairs, after⟩, hpairs, hv⟩ := bind_eq_ok_iff.mp h
        obtain rfl := fst_eq_of_ok hv
        obtain rfl := Nat.succ.inj ‹_›
        exact isRead_ofPairs hroom (ih.members hpairs)
  · exact isRead_of_scalar h

theorem GivesRead.items_succ (ih : GivesRead fuel) {vs : List Json}
    (h : Reader.items room (fuel + 1) s = .ok (vs, rest)) : ∀ v ∈ vs, IsRead room v := by
  rw [Reader.items] at h
  obtain ⟨⟨v, after⟩, hv, h⟩ := bind_eq_ok_iff.mp h
  have hfirst := ih.value hv
  dsimp only at h
  split at h
  · obtain rfl := fst_eq_of_ok h
    exact List.forall_mem_singleton.mpr hfirst
  · obtain ⟨⟨ws, last⟩, hws, h⟩ := bind_eq_ok_iff.mp h
    obtain rfl := fst_eq_of_ok h
    exact List.forall_mem_cons.mpr ⟨hfirst, ih.items hws⟩
  · exact nomatch h

theorem GivesRead.members_succ (ih : GivesRead fuel) {pairs : List (String × Json)}
    (h : Reader.members room (fuel + 1) s = .ok (pairs, rest)) :
    ∀ member ∈ pairs, IsRead room member.2 := by
  rw [Reader.members.eq_def] at h
  split at h
  · contradiction
  · rename_i heq
    obtain rfl := Nat.succ.inj heq
    obtain ⟨⟨name, afterName⟩, -, h⟩ := bind_eq_ok_iff.mp h
    dsimp only at h
    split at h
    · obtain ⟨⟨v, after⟩, hv, h⟩ := bind_eq_ok_iff.mp h
      have hfirst := ih.value hv
      dsimp only at h
      split at h
      · obtain rfl := fst_eq_of_ok h
        exact List.forall_mem_singleton.mpr hfirst
      · obtain ⟨⟨others, last⟩, hothers, h⟩ := bind_eq_ok_iff.mp h
        obtain rfl := fst_eq_of_ok h
        exact List.forall_mem_cons.mpr ⟨hfirst, ih.members hothers⟩
      · exact nomatch h
    · exact nomatch h
  · exact nomatch h

end Step

/-- Every reader that is started gives what it has room for, by what those that it starts give. -/
theorem givesRead : ∀ fuel, GivesRead fuel
  | 0 => ⟨nofun, nofun, nofun⟩
  | fuel + 1 =>
    have ih := givesRead fuel
    ⟨ih.value_succ, ih.items_succ, ih.members_succ⟩

theorem isRead_of_readWithin {room : Option Nat} {text : String} {v : Json}
    (h : readWithin room text = .ok v) : IsRead room v := by
  obtain ⟨⟨w, rest⟩, hw, hv⟩ := bind_eq_ok_iff.mp h
  dsimp only at hv
  split at hv
  · obtain rfl := Except.ok.inj hv
    exact (givesRead _).value hw
  · exact nomatch hv

end StepGlue.Json
