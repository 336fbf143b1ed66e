import StepGlue.Method.Rendered

/-!
# String literals

A literal is its text with a backslash before every backslash and then before every quote. Whoever
reads the character after a backslash as it is gets the text back, and ends where the literal ends.
-/

namespace StepGlue

/-- Reads up to the first quote that is not escaped: what was read, and what follows the quote. A
character after a backslash stands for itself. -/
def readQuoted : List Char → Option (List Char × List Char)
  | [] => none
  | '"' :: rest => some ([], rest)
  | '\\' :: c :: rest => (readQuoted rest).map fun (text, after) => (c :: text, after)
  | c :: rest => (readQuoted rest).map fun (text, after) => (c :: text, after)

/-- Reads the literal that a text starts with. -/
def readLiteral? : List Char → Option (List Char × List Char)
  | '"' :: rest => readQuoted rest
  | _ => none

/-- Puts a backslash before every `mark`. -/
def escapeEach (mark : Char) (s : List Char) : List Char :=
  s.flatMap fun c => if c = mark then ['\\', c] else [c]

/-- Escaping backslashes first and quotes after that escapes both, and nothing twice. -/
theorem toList_stringLiteral (text : String) : (stringLiteral text).toList =
    '"' :: escapeEach '"' (escapeEach '\\' text.toList) ++ ['"'] := by
  rw [stringLiteral, String.toList_ofList, escapeEach, escapeEach, List.flatMap_assoc]
  congr 3
  funext c
  by_cases hslash : c = '\\'
  · simp [hslash]
  · by_cases hquote : c = '"' <;> simp [hslash, hquote]

theorem readQuoted_escapeEach (s rest : List Char) :
    readQuoted (escapeEach '"' (escapeEach '\\' s) ++ '"' :: rest) = some (s, rest) := by
  induction s with
  | nil => rfl
  | cons c s ih =>
    simp only [escapeEach] at ih
    by_cases hslash : c = '\\'
    · simp [escapeEach, hslash, readQuoted, ih]
    · by_cases hquote : c = '"'
      · simp [escapeEach, hquote, readQuoted, ih]
      · simp [escapeEach, hslash, hquote, readQuoted, ih]

theorem readLiteral?_stringLiteral (text : String) (rest : List Char) :
    readLiteral? ((stringLiteral text).toList ++ rest) = some (text.toList, rest) := by
  rw [toList_stringLiteral, List.cons_append, List.cons_append, List.append_assoc]
  exact readQuoted_escapeEach text.toList rest

/-- Texts with the same literal are the same. -/
theorem stringLiteral_injective : Function.Injective stringLiteral := by
  intro text other h
  have hread := readLiteral?_stringLiteral text []
  rw [h, readLiteral?_stringLiteral, Option.some.injEq, Prod.mk.injEq] at hread
  exact (String.toList_inj.mp hread.1).symm

theorem Method.exists_lines_eq_append (step : Step) (name : String) :
    ∃ upper, lines step name = upper ++
      [ "        \x7d catch (Exception e) \x7b",
        "            throw new RuntimeException(" ++ stringLiteral (failureMessage step) ++ ", e);",
        "        \x7d",
        "    \x7d" ] :=
  ⟨_, rfl⟩

/-- **Literals can be read back.** A reader of a literal gets the text that was written, and stops
at the end of the literal whatever follows it. So no two texts have the same literal, and what a
method throws when it fails names its step's text and passes on the exception. -/
theorem stringLiteral_reads_back :
    (∀ (text : String) (rest : List Char),
      readLiteral? ((stringLiteral text).toList ++ rest) = some (text.toList, rest)) ∧
    Function.Injective stringLiteral ∧
    ∀ (step : Step) (registry : Registry), ∃ (upper : List String) (arguments : String),
      upper.getLast? = some "        \x7d catch (Exception e) \x7b" ∧
      (Method.render step registry).1.text = "\n".intercalate
        (upper ++
          ["            throw new RuntimeException(" ++ arguments, "        \x7d", "    \x7d"]) ∧
      readLiteral? arguments.toList =
        some (("Failed to execute step: " ++ step.text).toList, ", e);".toList) := by
  refine ⟨readLiteral?_stringLiteral, stringLiteral_injective, fun step registry => ?_⟩
  obtain ⟨upper, hlines⟩ :=
    Method.exists_lines_eq_append step (Method.render step registry).1.name
  have htext : (Method.render step registry).1.text =
      "\n".intercalate (Method.lines step (Method.render step registry).1.name) :=
    rfl
  refine ⟨upper ++ ["        \x7d catch (Exception e) \x7b"],
    stringLiteral (Method.failureMessage step) ++ ", e);", List.getLast?_concat, ?_, ?_⟩
  · rw [htext, hlines, List.append_assoc, ← String.append_assoc]
    rfl
  · rw [String.toList_append]
    exact readLiteral?_stringLiteral _ _

end StepGlue
