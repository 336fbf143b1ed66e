import Mathlib.Data.List.Nodup
import StepGlue.PairList

/-!
# Maps kept as lists of pairs

Setting a value keeps the order of the keys and the values of all other keys. Where no key stands
twice, the pairs of a list are the values that its keys have.
-/

namespace StepGlue.PairList

variable {κ α : Type} [DecidableEq κ] {pairs changes : List (κ × α)} {key : κ} {value : α}

abbrev keys (pairs : List (κ × α)) : List κ :=
  pairs.map Prod.fst

theorem get?_eq_none_iff : get? pairs key = none ↔ key ∉ keys pairs := by
  induction pairs with
  | nil => simp [get?]
  | cons head rest ih =>
    obtain ⟨first, old⟩ := head
    by_cases h : key = first <;> simp [get?, h, ih]

theorem mem_of_get?_eq_some (h : get? pairs key = some value) : (key, value) ∈ pairs := by
  induction pairs with
  | nil => simp [get?] at h
  | cons head rest ih =>
    obtain ⟨first, old⟩ := head
    by_cases hkey : key = first
    · subst hkey
      rw [get?, if_pos rfl, Option.some.injEq] at h
      exact h ▸ List.mem_cons_self
    · rw [get?, if_neg hkey] at h
      exact List.mem_cons_of_mem _ (ih h)

theorem get?_eq_some_iff (hnodup : (keys pairs).Nodup) :
    get? pairs key = some value ↔ (key, value) ∈ pairs := by
  refine ⟨mem_of_get?_eq_some, fun hmem => ?_⟩
  induction pairs with
  | nil => exact absurd hmem List.not_mem_nil
  | cons head rest ih =>
    obtain ⟨first, old⟩ := head
    obtain ⟨hfirst, hrest⟩ := List.nodup_cons.mp hnodup
    rcases List.mem_cons.mp hmem with heq | htail
    · obtain ⟨rfl, rfl⟩ := Prod.mk.inj heq
      rw [get?, if_pos rfl]
    · have hne : key ≠ first := by
        rintro rfl
        exact hfirst (List.mem_map.mpr ⟨_, htail, rfl⟩)
      rw [get?, if_neg hne, ih hrest htail]

/-! ### Setting one value -/

theorem keys_set (pairs : List (κ × α)) (key : κ) (value : α) :
    keys (set pairs key value) = if key ∈ keys pairs then keys pairs else keys pairs ++ [key] := by
  induction pairs with
  | nil => simp [set]
  | cons head rest ih =>
    obtain ⟨first, old⟩ := head
    by_cases h : key = first
    · simp [set, h]
    · rw [set, if_neg h, keys, List.map_cons,
        show List.map Prod.fst (set rest key value) = _ from ih]
      by_cases hmem : key ∈ keys rest <;> simp [h, hmem]

theorem nodup_keys_set (h : (keys pairs).Nodup) : (keys (set pairs key value)).Nodup := by
  rw [keys_set]
  split
  · exact h
  · exact h.append (List.nodup_singleton key) (by simpa using ‹key ∉ keys pairs›)

theorem set_eq_append (h : key ∉ keys pairs) (value : α) :
    set pairs key value = pairs ++ [(key, value)] := by
  induction pairs with
  | nil => rfl
  | cons head rest ih =>
    obtain ⟨hne, hrest⟩ := not_or.mp (mt List.mem_cons.mpr h)
    rw [set, if_neg hne, ih hrest, List.cons_append]

theorem mem_set {pair : κ × α} (h : pair ∈ set pairs key value) :
    pair = (key, value) ∨ pair ∈ pairs := by
  induction pairs with
  | nil => exact .inl (List.mem_singleton.mp h)
  | cons head rest ih =>
    obtain ⟨first, old⟩ := head
    rw [set] at h
    split at h
    · rcases List.mem_cons.mp h with hpair | hrest
      · exact .inl hpair
      · exact .inr (List.mem_cons_of_mem _ hrest)
    · rcases List.mem_cons.mp h with hpair | hrest
      · exact .inr (hpair ▸ List.mem_cons_self)
      · rcases ih hrest with hpair | hmem
        · exact .inl hpair
        · exact .inr (List.mem_cons_of_mem _ hmem)

/-! ### Setting several values -/

theorem update_cons (pairs changes : List (κ × α)) (change : κ × α) :
    update pairs (change :: changes) = update (set pairs change.1 change.2) changes :=
  rfl

theorem nodup_keys_update (h : (keys pairs).Nodup) : (keys (update pairs changes)).Nodup := by
  induction changes generalizing pairs with
  | nil => exact h
  | cons change changes ih => exact ih (nodup_keys_set h)

theorem mem_update {pair : κ × α} (h : pair ∈ update pairs changes) :
    pair ∈ changes ∨ pair ∈ pairs := by
  induction changes generalizing pairs with
  | nil => exact .inr h
  | cons change changes ih =>
    rcases ih h with hmem | hmem
    · exact .inl (List.mem_cons_of_mem _ hmem)
    · rcases mem_set hmem with rfl | hpairs
      · exact .inl List.mem_cons_self
      · exact .inr hpairs

/-- What is said of each pair of a list and of each change is so after the changes. -/
theorem forall_mem_update {P : κ × α → Prop} (hpairs : ∀ pair ∈ pairs, P pair)
    (hchanges : ∀ pair ∈ changes, P pair) : ∀ pair ∈ update pairs changes, P pair := by
  intro pair hpair
  rcases mem_update hpair with hmem | hmem
  · exact hchanges pair hmem
  · exact hpairs pair hmem

theorem get?_update (hnodup : (keys changes).Nodup) (pairs : List (κ × α)) (key : κ) :
    get? (update pairs changes) key = (get? changes key).or (get? pairs key) := by
  induction changes generalizing pairs with
  | nil => rfl
  | cons change changes ih =>
    obtain ⟨first, new⟩ := change
    obtain ⟨hfirst, hchanges⟩ := List.nodup_cons.mp hnodup
    rw [update_cons, ih hchanges, get?_set, get?]
    by_cases h : key = first
    · rw [if_pos h, if_pos h, get?_eq_none_iff.mpr (h ▸ hfirst), Option.none_or, Option.some_or]
    · rw [if_neg h, if_neg h]

theorem mem_update_of_mem (hnodup : (keys changes).Nodup) {pair : κ × α} (h : pair ∈ changes) :
    pair ∈ update pairs changes := by
  apply mem_of_get?_eq_some
  rw [get?_update hnodup, (get?_eq_some_iff hnodup).mpr h, Option.some_or]

theorem set_of_get?_eq_some (h : get? pairs key = some value) : set pairs key value = pairs := by
  induction pairs with
  | nil => cases h
  | cons head rest ih =>
    obtain ⟨first, old⟩ := head
    rw [get?] at h
    by_cases hkey : key = first
    · rw [if_pos hkey] at h
      rw [set, if_pos hkey, hkey, Option.some.inj h]
    · rw [if_neg hkey] at h
      rw [set, if_neg hkey, ih h]

/-- Changes that were made are no changes any more. -/
theorem update_again (hnodup : (keys changes).Nodup) (pairs : List (κ × α)) :
    update (update pairs changes) changes = update pairs changes := by
  have hmade : ∀ change ∈ changes, get? (update pairs changes) change.1 = some change.2 := by
    intro change hmem
    rw [get?_update hnodup, (get?_eq_some_iff hnodup).mpr hmem, Option.some_or]
  generalize update pairs changes = made at hmade ⊢
  clear hnodup
  induction changes with
  | nil => rfl
  | cons change changes ih =>
    obtain ⟨hfirst, hrest⟩ := List.forall_mem_cons.mp hmade
    rw [update_cons, set_of_get?_eq_some hfirst, ih hrest]

/-- Changes to keys that are not there are added at the end, as they are. -/
theorem update_eq_append (hnodup : (keys (pairs ++ changes)).Nodup) :
    update pairs changes = pairs ++ changes := by
  induction changes generalizing pairs with
  | nil => exact (List.append_nil pairs).symm
  | cons change changes ih =>
    have hnew : change.1 ∉ keys pairs := by
      intro hmem
      rw [keys, List.map_append, List.map_cons, List.nodup_append] at hnodup
      exact hnodup.2.2 _ hmem _ List.mem_cons_self rfl
    have hset : set pairs change.1 change.2 = pairs ++ [change] := set_eq_append hnew change.2
    rw [List.append_cons] at hnodup ⊢
    rw [update_cons, hset, ih hnodup]

/-! ### What a change leaves alone -/

/-- A list of pairs after changes to the values of some keys: the keys keep their places, new ones
stand at the end, and no other key has another value. -/
structure DiffersAt (changed : κ → Prop) (before after : List (κ × α)) : Prop where
  keys_isPrefix : keys before <+: keys after
  get?_eq : ∀ key, ¬changed key → get? after key = get? before key

namespace DiffersAt

variable {changed : κ → Prop} {before middle after : List (κ × α)}

theorem refl (changed : κ → Prop) (pairs : List (κ × α)) : DiffersAt changed pairs pairs :=
  ⟨List.prefix_refl _, fun _ _ => rfl⟩

theorem mono {others : κ → Prop} (h : DiffersAt changed before after)
    (hchanged : ∀ key, changed key → others key) : DiffersAt others before after :=
  ⟨h.keys_isPrefix, fun key hkey => h.get?_eq key fun hold => hkey (hchanged key hold)⟩

theorem trans (hfirst : DiffersAt changed before middle)
    (hsecond : DiffersAt changed middle after) : DiffersAt changed before after :=
  ⟨hfirst.keys_isPrefix.trans hsecond.keys_isPrefix,
    fun key hkey => (hsecond.get?_eq key hkey).trans (hfirst.get?_eq key hkey)⟩

theorem set (hkey : changed key) (pairs : List (κ × α)) (value : α) :
    DiffersAt changed pairs (set pairs key value) := by
  refine ⟨?_, fun other hother => ?_⟩
  · rw [keys_set]
    split
    · exact List.prefix_refl _
    · exact List.prefix_append _ _
  · rw [get?_set, if_neg]
    rintro rfl
    exact hother hkey

theorem update (hkeys : ∀ key ∈ keys changes, changed key) (pairs : List (κ × α)) :
    DiffersAt changed pairs (update pairs changes) := by
  induction changes generalizing pairs with
  | nil => exact refl changed pairs
  | cons change changes ih =>
    rw [update_cons]
    obtain ⟨hfirst, hrest⟩ := List.forall_mem_cons.mp hkeys
    exact (set hfirst pairs change.2).trans (ih hrest _)

end DiffersAt

end StepGlue.PairList
