import StepGlue.Proofs.Json.Number
import StepGlue.Proofs.Json.Text
import StepGlue.Proofs.Json.WellFormed
import StepGlue.Text.Unencodable

/-!
# Which layouts have a form in UTF-8

Apart from what stands in its texts, the layout of a value is in ASCII, so it has a form in UTF-8 if
and only if all its texts do.
-/

namespace StepGlue.Json

open StepGlue.Text

/-! ### ASCII -/

def IsAscii (c : Char) : Prop :=
  c.toNat < 0x80

instance (c : Char) : Decidable (IsAscii c) :=
  inferInstanceAs (Decidable (c.toNat < 0x80))

theorem isAscii_of_isDigit {c : Char} (hc : c.isDigit) : IsAscii c := by
  simp only [Char.isDigit, Bool.and_eq_true, decide_eq_true_eq, ge_iff_le] at hc
  exact Nat.lt_of_le_of_lt (show c.toNat ≤ 57 from hc.2) (by norm_num)

theorem isAscii_of_mem_replicate {a : Char} (ha : IsAscii a) (n : ℕ) :
    ∀ c ∈ List.replicate n a, IsAscii c := by
  intro c hc
  rw [List.eq_of_mem_replicate hc]
  exact ha

theorem isAscii_of_mem_toDigits (n : ℕ) : ∀ c ∈ Nat.toDigits 10 n, IsAscii c :=
  fun c hc => isAscii_of_isDigit ((isWhole_toDigits n).isDigit c hc)

theorem isAscii_of_mem_toString_int (n : ℤ) : ∀ c ∈ (toString n).toList, IsAscii c := by
  rw [toList_toString_int, List.forall_mem_append]
  refine ⟨?_, isAscii_of_mem_toDigits _⟩
  split <;> exact toNat_lt_of_all (by decide)

theorem isAscii_of_mem_decimalText {d : Decimal} (hd : ∀ c ∈ d.digits, c.isDigit) :
    ∀ c ∈ decimalText d, IsAscii c := by
  have hdigits : ∀ c ∈ d.digits, IsAscii c := fun c hc => isAscii_of_isDigit (hd c hc)
  have htake : ∀ n, ∀ c ∈ d.digits.take n, IsAscii c :=
    fun n c hc => hdigits c (List.mem_of_mem_take hc)
  have hdrop : ∀ n, ∀ c ∈ d.digits.drop n, IsAscii c :=
    fun n c hc => hdigits c (List.mem_of_mem_drop hc)
  have hzeros : ∀ n, ∀ c ∈ List.replicate n '0', IsAscii c := isAscii_of_mem_replicate (by decide)
  have hpower : ∀ n : ℕ, ∀ c ∈ (toString n).toList, IsAscii c := by
    intro n
    rw [Nat.toString_eq_ofList_toDigits, String.toList_ofList]
    exact isAscii_of_mem_toDigits n
  have hsigns : IsAscii '0' ∧ IsAscii '.' ∧ IsAscii 'e' ∧ IsAscii '-' ∧ IsAscii '+' := by decide
  rw [decimalText]
  split_ifs <;>
    simp only [List.cons_append, List.append_assoc, List.forall_mem_cons, List.forall_mem_append,
      hsigns, true_and] <;>
    grind

theorem isAscii_of_mem_numberText {x : Double} (hx : x.IsCanonical) :
    ∀ c ∈ (numberText x).toList, IsAscii c := by
  have hsign : ∀ negative : Bool, ∀ c ∈ (if negative then "-" else "").toList, IsAscii c := by
    intro negative
    cases negative <;> exact toNat_lt_of_all (by decide)
  cases x with
  | notANumber => exact toNat_lt_of_all (by decide)
  | infinite negative => cases negative <;> exact toNat_lt_of_all (by decide)
  | finite negative mantissa exponent =>
    rw [numberText, realText, String.toList_append, List.forall_mem_append]
    refine ⟨hsign negative, ?_⟩
    by_cases hzero : mantissa = 0
    · rw [if_pos hzero]
      exact toNat_lt_of_all (by decide)
    · rw [if_neg hzero, String.toList_ofList]
      exact isAscii_of_mem_decimalText (Decimal.isNormal_shortest hzero hx).isDigit

theorem isAscii_of_mem_newLine (depth : Nat) : ∀ c ∈ newLine depth, IsAscii c :=
  List.forall_mem_cons.mpr ⟨by decide, isAscii_of_mem_replicate (by decide) _⟩

theorem isAscii_of_mem_hexDigits (width n : Nat) : ∀ c ∈ hexDigits width n, IsAscii c := by
  have hdigit : ∀ k < 16, IsAscii (hexDigit k) := by decide
  induction width generalizing n with
  | zero => exact fun _ hc => nomatch hc
  | succ width ih =>
    rw [hexDigits, List.forall_mem_append]
    refine ⟨ih _, List.forall_mem_singleton.mpr (hdigit _ (Nat.mod_lt _ (by decide)))⟩

/-! ### Texts -/

variable [StandIns]

theorem admits_of_isAscii {c : Char} (hc : IsAscii c) : Charset.utf8.admits c := by
  have hnone := surrogate?_eq_none (Nat.lt_trans hc (show 0x80 < 0xF0000 by decide))
  simp [Charset.admits, Charset.isSpecial, hnone]

theorem all_admits_of_isAscii {s : List Char} (h : ∀ c ∈ s, IsAscii c) :
    s.all Charset.utf8.admits = true :=
  List.all_eq_true.mpr fun c hc => admits_of_isAscii (h c hc)

theorem all_admits_escapedChar (c : Char) :
    (escapedChar c).all Charset.utf8.admits = Charset.utf8.admits c := by
  have hascii : ∀ {c : Char} {s : List Char}, IsAscii c → (∀ d ∈ s, IsAscii d) →
      s.all Charset.utf8.admits = Charset.utf8.admits c := fun hc hs => by
    rw [all_admits_of_isAscii hs, admits_of_isAscii hc]
  rw [escapedChar]
  split_ifs with hquote hbackslash hlineFeed hreturn htab hformFeed hbackspace hcontrol
  · exact hascii (hquote ▸ by decide) (toNat_lt_of_all (by decide))
  · exact hascii (hbackslash ▸ by decide) (toNat_lt_of_all (by decide))
  · exact hascii (hlineFeed ▸ by decide) (toNat_lt_of_all (by decide))
  · exact hascii (hreturn ▸ by decide) (toNat_lt_of_all (by decide))
  · exact hascii (htab ▸ by decide) (toNat_lt_of_all (by decide))
  · exact hascii (hformFeed ▸ by decide) (toNat_lt_of_all (by decide))
  · exact hascii (hbackspace ▸ by decide) (toNat_lt_of_all (by decide))
  · exact hascii (Nat.lt_trans hcontrol (by decide)) (List.forall_mem_cons.mpr
      ⟨by decide, List.forall_mem_cons.mpr ⟨by decide, isAscii_of_mem_hexDigits 4 _⟩⟩)
  · rw [List.all_cons, List.all_nil, Bool.and_true]

theorem all_admits_stringText (s : String) :
    (stringText s).all Charset.utf8.admits = Text.isEncodable s := by
  have hquote : Charset.utf8.admits '"' = true := admits_of_isAscii (by decide)
  simp only [stringText, List.cons_append, List.all_cons, List.all_append, List.all_flatMap,
    List.all_nil, all_admits_escapedChar, hquote, Bool.true_and, Bool.and_true, Text.isEncodable]

/-! ### Values -/

theorem admits_structure : Charset.utf8.admits '[' ∧ Charset.utf8.admits ']' ∧
    Charset.utf8.admits '\x7b' ∧ Charset.utf8.admits '\x7d' ∧ Charset.utf8.admits ',' ∧
    Charset.utf8.admits ':' ∧ Charset.utf8.admits ' ' := by
  refine ⟨?_, ?_, ?_, ?_, ?_, ?_, ?_⟩ <;> exact admits_of_isAscii (by decide)

theorem all_admits_newLine (depth : Nat) : (newLine depth).all Charset.utf8.admits = true :=
  all_admits_of_isAscii (isAscii_of_mem_newLine depth)

mutual

theorem all_admits_layoutBefore (depth : Nat) (text : List Char) :
    ∀ v : Json, v.WellFormed → (layoutBefore depth v text).all Charset.utf8.admits =
      (v.isEncodable && text.all Charset.utf8.admits)
  | null, _ | bool true, _ | bool false, _ => by
    rw [layoutBefore, List.all_append, all_admits_of_isAscii (toNat_lt_of_all (by decide))]
    rfl
  | int n, _ => by
    rw [layoutBefore, List.all_append, all_admits_of_isAscii (isAscii_of_mem_toString_int n)]
    rfl
  | real x, hv => by
    cases hv with
    | real hx =>
      rw [layoutBefore, List.all_append, all_admits_of_isAscii (isAscii_of_mem_numberText hx)]
      rfl
  | str s, _ => by
    rw [layoutBefore, List.all_append, all_admits_stringText]
    rfl
  | arr [], _ => by
    simp [layoutBefore, admits_structure, isEncodable, everywhere, everywhereItems]
  | arr (v :: vs), hv => by
    have hitems := wellFormed_arr_iff.mp hv
    rw [layoutBefore, List.all_cons, List.all_append, all_admits_newLine,
      all_admits_layoutBefore _ _ v (hitems v List.mem_cons_self),
      all_admits_itemsBefore _ _ vs fun w hw => hitems w (List.mem_cons_of_mem _ hw),
      List.all_append, all_admits_newLine, List.all_cons]
    simp [admits_structure, isEncodable, everywhere, everywhereItems, Bool.and_assoc]
  | obj [], _ => by
    simp [layoutBefore, admits_structure, isEncodable, everywhere, everywhereMembers]
  | obj ((name, v) :: rest), hv => by
    have hmembers := hv.member
    rw [layoutBefore, List.all_cons, List.all_append, all_admits_newLine, List.all_append,
      all_admits_stringText, List.all_cons, List.all_cons,
      all_admits_layoutBefore _ _ v (hmembers _ List.mem_cons_self),
      all_admits_membersBefore _ _ rest fun member hmem =>
        hmembers member (List.mem_cons_of_mem _ hmem),
      List.all_append, all_admits_newLine, List.all_cons]
    simp [admits_structure, isEncodable, everywhere, everywhereMembers, Bool.and_assoc]
termination_by v => sizeOf v

theorem all_admits_itemsBefore (depth : Nat) (text : List Char) :
    ∀ vs : List Json, (∀ v ∈ vs, v.WellFormed) →
      (itemsBefore depth vs text).all Charset.utf8.admits =
        ((arr vs).isEncodable && text.all Charset.utf8.admits)
  | [], _ => by
    simp [itemsBefore, isEncodable, everywhere, everywhereItems]
  | v :: vs, h => by
    rw [itemsBefore, List.all_cons, List.all_append, all_admits_newLine,
      all_admits_layoutBefore _ _ v (h v List.mem_cons_self),
      all_admits_itemsBefore _ _ vs fun w hw => h w (List.mem_cons_of_mem _ hw)]
    simp [admits_structure, isEncodable, everywhere, everywhereItems, Bool.and_assoc]
termination_by vs => sizeOf vs

theorem all_admits_membersBefore (depth : Nat) (text : List Char) :
    ∀ members : Object, (∀ member ∈ members, member.2.WellFormed) →
      (membersBefore depth members text).all Charset.utf8.admits =
        ((obj members).isEncodable && text.all Charset.utf8.admits)
  | [], _ => by
    simp [membersBefore, isEncodable, everywhere, everywhereMembers]
  | (name, v) :: rest, h => by
    rw [membersBefore, List.all_cons, List.all_append, all_admits_newLine, List.all_append,
      all_admits_stringText, List.all_cons, List.all_cons,
      all_admits_layoutBefore _ _ v (h _ List.mem_cons_self),
      all_admits_membersBefore _ _ rest fun member hmem => h member (List.mem_cons_of_mem _ hmem)]
    simp [admits_structure, isEncodable, everywhere, everywhereMembers, Bool.and_assoc]
termination_by members => sizeOf members

end

theorem isEncodable_layout {v : Json} (hv : v.WellFormed) :
    Text.isEncodable v.layout = v.isEncodable := by
  rw [Text.isEncodable, layout, String.toList_ofList, all_admits_layoutBefore 0 [] v hv,
    List.all_nil, Bool.and_true]

end StepGlue.Json
