import StepGlue.Proofs.Method.Name
import StepGlue.Proofs.Method.Numbering
import StepGlue.Proofs.Text.Lines

/-!
# Method names as identifiers

A name is a letter followed by letters and digits. That makes it an identifier unless the language
keeps the word for itself. Only a name without a number can be such a word, so a registry gives one
out just when it is asked for it.
-/

namespace StepGlue

open Text

/-- The keywords of Java and the literals that are spelled like identifiers. -/
def reservedWords : List String :=
  [ "abstract", "assert", "boolean", "break", "byte", "case", "catch", "char", "class", "const",
    "continue", "default", "do", "double", "else", "enum", "extends", "final", "finally", "float",
    "for", "goto", "if", "implements", "import", "instanceof", "int", "interface", "long", "native",
    "new", "package", "private", "protected", "public", "return", "short", "static", "strictfp",
    "super", "switch", "synchronized", "this", "throw", "throws", "transient", "try", "void",
    "volatile", "while", "_", "true", "false", "null" ]

/-- A Latin letter, and then Latin letters and digits. -/
def IsCamelWord (name : String) : Prop :=
  ∃ c rest, name.toList = c :: rest ∧ c.isAlpha ∧ ∀ d ∈ rest, d.isAlphanum

structure IsIdentifier (name : String) : Prop where
  isCamelWord : IsCamelWord name
  not_reserved : name ∉ reservedWords

variable {base name : String}

theorem IsCamelWord.append_number (h : IsCamelWord base) (k : Nat) :
    IsCamelWord (base ++ toString k) := by
  obtain ⟨c, rest, hbase, hc, hrest⟩ := h
  refine ⟨c, rest ++ (toString k).toList, by rw [String.toList_append, hbase]; rfl, hc, ?_⟩
  rw [List.forall_mem_append]
  refine ⟨hrest, fun d hd => ?_⟩
  simp [Char.isAlphanum, isDigit_of_mem_toString hd]

/-- A reserved word ends with no digit. -/
theorem append_number_not_mem_reservedWords (base : String) (k : Nat) :
    base ++ toString k ∉ reservedWords := by
  have hwords : ∀ word ∈ reservedWords, ¬word.toList.getLast?.any Char.isDigit := by
    decide +kernel
  intro hmem
  obtain ⟨c, hlast, hdigit⟩ := exists_getLast?_toString k
  have hword := hwords _ hmem
  rw [getLast?_toList_append hlast] at hword
  exact hword hdigit

namespace MethodName

theorem isCamelWord_ofText (text : String) : IsCamelWord (ofText text) := by
  have hall : ∀ c ∈ (ofText text).toList, c.isAlphanum := fun c => isAlphanum_of_mem_ofText
  have hhead : ∃ c rest, (ofText text).toList = c :: rest ∧ c.isDigit = false := by
    rw [ofText]
    split
    · exact ⟨'g', "eneratedStep".toList, by decide +kernel, rfl⟩
    · rename_i hne
      obtain ⟨c, rest, hname⟩ := List.exists_cons_of_ne_nil hne
      have hfirst := List.head?_dropWhile_not Char.isDigit
        (camelCase (words (text.toList.filter isKept)))
      rw [hname] at hfirst
      refine ⟨c, rest, by rw [String.toList_ofList, hname], ?_⟩
      simpa using hfirst
  obtain ⟨c, rest, htext, hdigit⟩ := hhead
  rw [htext, List.forall_mem_cons] at hall
  exact ⟨c, rest, htext, by simpa [Char.isAlphanum, hdigit] using hall.1, hall.2⟩

end MethodName

namespace Registry

variable {r : Registry} {bases : List String}

/-- Each name is the base that it was given out for, or that base and a number. -/
theorem exists_base_of_mem_reserveAll (h : name ∈ (r.reserveAll bases).1) :
    ∃ base ∈ bases, name = base ∨ ∃ k : Nat, name = base ++ toString k := by
  induction bases generalizing r with
  | nil => exact absurd h (by simp [reserveAll])
  | cons base bases ih =>
    rw [reserveAll, List.mem_cons] at h
    rcases h with rfl | h
    · exact ⟨base, List.mem_cons_self, r.reserve_fst_eq base⟩
    · obtain ⟨other, hmem, hname⟩ := ih h
      exact ⟨other, List.mem_cons_of_mem _ hmem, hname⟩

/-- Each base is given out, for itself or for another one with a number. -/
theorem mem_reserveAll_of_mem (h : base ∈ bases) :
    base ∈ r.used ∨ base ∈ (r.reserveAll bases).1 := by
  induction bases generalizing r with
  | nil => exact absurd h List.not_mem_nil
  | cons first bases ih =>
    rw [reserveAll, List.mem_cons]
    rcases List.mem_cons.mp h with rfl | h
    · by_cases htaken : base ∈ r.used
      · exact .inl htaken
      · exact .inr (.inl (by rw [reserve_of_not_mem htaken]))
    · rcases ih (r := (r.reserve first).2) h with hused | hmem
      · rw [used_reserve, List.mem_cons] at hused
        tauto
      · exact .inr (.inr hmem)

theorem isCamelWord_of_mem_reserveAll (hbases : ∀ base ∈ bases, IsCamelWord base)
    (h : name ∈ (r.reserveAll bases).1) : IsCamelWord name := by
  obtain ⟨base, hbase, rfl | ⟨k, rfl⟩⟩ := exists_base_of_mem_reserveAll h
  · exact hbases name hbase
  · exact (hbases base hbase).append_number k

/-- A reserved word is given out just when it is asked for. -/
theorem mem_reserveAll_empty_iff_of_reserved (hword : name ∈ reservedWords) :
    name ∈ (empty.reserveAll bases).1 ↔ name ∈ bases := by
  constructor
  · intro h
    obtain ⟨base, hbase, rfl | ⟨k, rfl⟩⟩ := exists_base_of_mem_reserveAll h
    · exact hbase
    · exact absurd hword (append_number_not_mem_reservedWords base k)
  · intro h
    exact (mem_reserveAll_of_mem (r := empty) h).resolve_left List.not_mem_nil

end Registry

end StepGlue
