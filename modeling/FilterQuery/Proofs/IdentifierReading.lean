import FilterQuery.Proofs.DialectNames

/-!
The identifier at the head of a text: a word, or a name in double quotes in which a quote is written
twice. Main statement: a name that is written as an identifier is read as itself, and nothing of it
is left behind or taken from what follows.
-/

namespace FilterQuery.Sql

/-- The name at the head of a text, and what comes behind it. A word does not begin with a digit. -/
def readIdentifier : List Char → Option (List Char × List Char)
  | [] => none
  | first :: rest =>
      if first = '"' then readQuoted '"' rest
      else if first.isAlpha || first == '_' then
        some (first :: rest.takeWhile isWordChar, rest.dropWhile isWordChar)
      else none

def EndsIdentifier (behind : List Char) : Prop :=
  ∀ next ∈ behind.head?, next ≠ '"' ∧ isWordChar next = false

theorem endsIdentifier_nil : EndsIdentifier [] := by
  simp [EndsIdentifier]

variable {behind : List Char}

theorem readIdentifier_quoted (name : List Char) (ends : EndsIdentifier behind) :
    readIdentifier (quoted name ++ behind) = some (name, behind) := by
  have apart : behind.head? ≠ some '"' := fun same => (ends '"' same).1 rfl
  have read := readQuoted_doubledQuotes name apart
  simpa [quoted, readIdentifier] using read

theorem readIdentifier_word {word : List Char} (plain : isPlainWord word = true)
    (ends : EndsIdentifier behind) :
    readIdentifier (word ++ behind) = some (word, behind) := by
  have taken : behind.takeWhile isWordChar = [] ∧ behind.dropWhile isWordChar = behind := by
    cases behind with
    | nil => exact ⟨rfl, rfl⟩
    | cons next _ => simp [(ends next rfl).2]
  cases word with
  | nil => cases plain
  | cons first rest =>
      simp only [isPlainWord, isWordChar, Char.isAlphanum, Bool.and_eq_true, Bool.not_eq_true',
        Bool.or_eq_true, beq_iff_eq, List.all_eq_true] at plain
      obtain ⟨⟨notDigit, begins⟩, goes⟩ := plain
      have notQuote : first ≠ '"' := by
        rintro rfl
        revert begins
        decide
      have whole : ∀ char ∈ rest, isWordChar char = true := fun char held => by
        simpa [isWordChar, Char.isAlphanum] using goes char held
      simp only [notDigit, Bool.false_eq_true, or_false] at begins
      simp [readIdentifier, notQuote, begins, List.takeWhile_append_of_pos whole,
        List.dropWhile_append_of_pos whole, taken]

/-- Two names never get the same identifier; and whatever a name holds, its identifier is read as
that name, up to the place where the identifier ends. -/
theorem readIdentifier_identifier :
    Function.Injective identifier ∧
      ∀ name behind, EndsIdentifier behind →
        readIdentifier (identifier name ++ behind) = some (name, behind) := by
  have reads (name behind : List Char) (ends : EndsIdentifier behind) :
      readIdentifier (identifier name ++ behind) = some (name, behind) := by
    rw [identifier]
    split
    · exact readIdentifier_quoted name ends
    · rename_i free
      exact readIdentifier_word (isPlainWord_of_unquoted free) ends
  refine ⟨fun first second same => ?_, reads⟩
  have readFirst := reads first [] endsIdentifier_nil
  rw [same, reads second [] endsIdentifier_nil] at readFirst
  cases readFirst
  rfl

theorem dropped_table_read :
    EndsIdentifier " AS j1".toList ∧
      identifier "x\"; DROP TABLE pets; --".toList = "\"x\"\"; DROP TABLE pets; --\"".toList ∧
        readIdentifier (identifier "x\"; DROP TABLE pets; --".toList ++ " AS j1".toList) =
          some ("x\"; DROP TABLE pets; --".toList, " AS j1".toList) := by
  have ends : EndsIdentifier " AS j1".toList := by
    rintro next ⟨⟩
    decide
  exact ⟨ends, by decide, readIdentifier_identifier.2 _ _ ends⟩

end FilterQuery.Sql
