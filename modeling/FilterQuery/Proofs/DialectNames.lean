import FilterQuery.Proofs.SqlTokens

/-!
What a name says in each dialect. PostgreSQL reads a word that has no quotes in small letters,
SQLite reads it as it is written, and both read what is in double quotes as it is written. MySQL
puts a name in backticks, and a text in double quotes is no name there but a value. In all of them a
word can be reserved. Main statement: which names are read as themselves, in each dialect.
-/

namespace FilterQuery

namespace Sql

/-- What stands in quotes, and what comes behind them. A quote inside is written twice. -/
def readQuoted (quote : Char) : List Char → Option (List Char × List Char)
  | [] => none
  | [char] => if char = quote then some ([], []) else none
  | char :: next :: rest =>
      if char = quote then
        if next = quote then (readQuoted quote rest).map fun (inside, behind) =>
          (quote :: inside, behind)
        else some ([], next :: rest)
      else (readQuoted quote (next :: rest)).map fun (inside, behind) => (char :: inside, behind)

theorem readQuoted_of_ne {quote char : Char} (different : char ≠ quote) (rest : List Char) :
    readQuoted quote (char :: rest) =
      (readQuoted quote rest).map fun (inside, behind) => (char :: inside, behind) := by
  cases rest <;> simp [readQuoted, different]

theorem readQuoted_doubledQuotes (name : List Char) {behind : List Char}
    (ends : behind.head? ≠ some '"') :
    readQuoted '"' (doubledQuotes name ++ '"' :: behind) = some (name, behind) := by
  induction name with
  | nil =>
      cases behind with
      | nil => rfl
      | cons next rest =>
          have apart : next ≠ '"' := fun same => ends (congrArg some same)
          simp [doubledQuotes, readQuoted, apart]
  | cons char rest ih =>
      by_cases quote : char = '"'
      · simp [doubledQuotes, readQuoted, quote, ih]
      · simp [doubledQuotes, quote, readQuoted_of_ne quote, ih]

end Sql

namespace Dialect

def quote : Dialect → Char
  | .postgresql | .sqlite => '"'
  | .mysql => '\x60'

def folded : Dialect → List Char → List Char
  | .postgresql, word => word.map Char.toLower
  | .mysql, word | .sqlite, word => word

/-- The name that a text says, when it is one name and nothing else. The reserved words, in small
letters, are names in quotes only. -/
def named? (dialect : Dialect) (reserved : List String) : List Char → Option (List Char)
  | [] => none
  | first :: rest =>
      if first = dialect.quote then
        match Sql.readQuoted dialect.quote rest with
        | some (name, []) => some name
        | _ => none
      else if Sql.isPlainWord (first :: rest) ∧ Sql.lower (first :: rest) ∉ reserved then
        some (dialect.folded (first :: rest))
      else none

theorem folded_eq_iff {dialect : Dialect} {word : List Char} :
    dialect.folded word = word ↔ dialect = .postgresql → ∀ char ∈ word, char.isUpper = false := by
  cases dialect with
  | mysql | sqlite => simp [folded]
  | postgresql =>
      have letters : word.map Char.toLower = word.map id ↔ ∀ char ∈ word, char.toLower = char :=
        List.map_inj_left
      rw [List.map_id] at letters
      rw [folded, letters]
      refine ⟨fun same _ char held => ?_, fun small char held => ?_⟩
      · rw [← same char held, Char.isUpper_toLower_eq_false]
      · exact Char.toLower_eq_of_not_isUpper (by simp [small rfl char held])

theorem named?_quoted (dialect : Dialect) (reserved : List String) (name : List Char) :
    dialect.named? reserved (Sql.quoted name) = if dialect = .mysql then none else some name := by
  have read : Sql.readQuoted '"' (Sql.doubledQuotes name ++ ['"']) = some (name, []) :=
    Sql.readQuoted_doubledQuotes name (by simp)
  cases dialect with
  | mysql => rfl
  | postgresql | sqlite => simp [Sql.quoted, named?, quote, read]

theorem named?_word (dialect : Dialect) (reserved : List String) {word : List Char}
    (plain : Sql.isPlainWord word = true) :
    dialect.named? reserved word =
      if Sql.lower word ∈ reserved then none else some (dialect.folded word) := by
  cases word with
  | nil => cases plain
  | cons first rest =>
      have apart : first ≠ dialect.quote := by
        rintro rfl
        cases dialect <;> cases plain
      simp [named?, apart, plain]

theorem named?_identifier (dialect : Dialect) (reserved : List String) (name : List Char) :
    dialect.named? reserved (Sql.identifier name) =
      if Sql.needsQuotes name then if dialect = .mysql then none else some name
      else if Sql.lower name ∈ reserved then none else some (dialect.folded name) := by
  rw [Sql.identifier]
  split
  · exact named?_quoted dialect reserved name
  · rename_i free
    exact named?_word dialect reserved (Sql.isPlainWord_of_unquoted free)

/-- SQLite reads each name as itself, unless it is reserved there and has no quotes. PostgreSQL also
needs quotes around capital letters, which it does not always get. MySQL reads no name that has got
quotes. -/
theorem named?_identifier_iff (reserved : List String) (name : String) :
    (Dialect.sqlite.named? reserved (Sql.text .sqlite [.identifier name]).toList =
      some name.toList ↔
        Sql.needsQuotes name.toList = true ∨ Sql.lower name.toList ∉ reserved) ∧
      (Dialect.postgresql.named? reserved (Sql.text .postgresql [.identifier name]).toList =
        some name.toList ↔
        Sql.needsQuotes name.toList = true ∨
          Sql.lower name.toList ∉ reserved ∧ ∀ char ∈ name.toList, char.isUpper = false) ∧
      (Dialect.mysql.named? reserved (Sql.text .mysql [.identifier name]).toList =
        some name.toList ↔
        Sql.needsQuotes name.toList = false ∧ Sql.lower name.toList ∉ reserved) := by
  have written (dialect : Dialect) : (Sql.text dialect [.identifier name]).toList =
      Sql.identifier name.toList := by
    simp [Sql.text, Sql.textFrom]
  simp only [written, named?_identifier]
  cases Sql.needsQuotes name.toList <;> simp [folded_eq_iff]

/-- A reserved word gets the quotes of another dialect, and a capital letter gets none. -/
theorem misread_names :
    Sql.text .mysql [.identifier "order"] = "\"order\"" ∧
      Dialect.mysql.named? [] (Sql.text .mysql [.identifier "order"]).toList = none ∧
      Sql.text .postgresql [.identifier "birthCity"] = "birthCity" ∧
        Dialect.postgresql.named? [] (Sql.text .postgresql [.identifier "birthCity"]).toList =
          some "birthcity".toList := by
  decide

end Dialect

end FilterQuery
