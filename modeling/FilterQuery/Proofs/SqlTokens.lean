import FilterQuery.Sql.Part
import Mathlib

/-!
SQL text split into tokens. A word is a keyword when statements have it for one, in small or capital
letters, and a name otherwise; what is in double quotes is a name whatever it says. Every token is
as long as it can be. Main statements: two texts are split one after the other when nothing at their
border goes on; and the text of an identifier is one token, which is its name unless the name is a
keyword that nothing guards.
-/

namespace FilterQuery.Sql

inductive Token where
  | keyword (word : String)
  | name (name : String)
  | number (digits : String)
  | placeholder (text : String)
  | symbol (text : String)
  deriving DecidableEq, Repr

def keywords : List String := [
  "select", "distinct", "from", "as", "inner", "join", "on", "where", "and", "or", "is", "not",
  "null", "in", "like", "exists", "order", "by", "asc", "desc"]

def symbols : List String := [".", ",", "(", ")", "*", "=", "!=", "<>", "<", "<=", ">", ">="]

def lower (word : List Char) : String :=
  String.ofList (word.map Char.toLower)

namespace Token

def keyword? : Token → Option String
  | .keyword word => some word
  | _ => none

def ofWord (word : List Char) : Token :=
  if lower word ∈ keywords then .keyword (lower word) else .name (String.ofList word)

def ofIdentifier (name : String) : Token :=
  if needsQuotes name.toList then .name name else ofWord name.toList

end Token

namespace Fragment

def tokens : Fragment → List Token
  | .select => [.keyword "select"]
  | .distinct => [.keyword "distinct"]
  | .allColumnsFrom => [.symbol ".", .symbol "*", .keyword "from"]
  | .named => [.keyword "as"]
  | .dot => [.symbol "."]
  | .innerJoin => [.keyword "inner", .keyword "join"]
  | .matching => [.keyword "on"]
  | .filtered => [.keyword "where"]
  | .and => [.keyword "and"]
  | .or => [.keyword "or"]
  | .comparison operator => [.symbol operator.symbol]
  | .isNull => [.keyword "is", .keyword "null"]
  | .isNotNull => [.keyword "is", .keyword "not", .keyword "null"]
  | .inLeftParen => [.keyword "in", .symbol "("]
  | .comma => [.symbol ","]
  | .like => [.keyword "like"]
  | .leftParen => [.symbol "("]
  | .rightParen => [.symbol ")"]
  | .truth => [.number "1", .symbol "=", .number "1"]
  | .falsity => [.number "1", .symbol "=", .number "0"]
  | .existsOpen => [.keyword "exists", .symbol "(", .keyword "select", .number "1", .keyword "from"]
  | .andLeftParen => [.keyword "and", .symbol "("]
  | .rightParenTwice => [.symbol ")", .symbol ")"]
  | .orderBy => [.keyword "order", .keyword "by"]
  | .space => []
  | .direction .ascending => [.keyword "asc"]
  | .direction .descending => [.keyword "desc"]

end Fragment

theorem mem_keywords_iff {word : String} :
    word ∈ keywords ↔ ∃ fixed : Fragment, .keyword word ∈ fixed.tokens := by
  constructor
  · have somewhere : ∀ word ∈ keywords,
        ∃ fixed ∈ [Fragment.select, .distinct, .allColumnsFrom, .named, .innerJoin,
        .matching, .filtered, .and, .or, .isNotNull, .inLeftParen, .like, .existsOpen, .orderBy,
        .direction .ascending, .direction .descending], .keyword word ∈ fixed.tokens := by decide
    intro listed
    obtain ⟨fixed, _, held⟩ := somewhere word listed
    exact ⟨fixed, held⟩
  · rintro ⟨fixed, held⟩
    have listed : ∀ word ∈ fixed.tokens.filterMap Token.keyword?, word ∈ keywords := by
      cases fixed with
      | comparison operator => cases operator <;> decide
      | direction order => cases order <;> decide
      | _ => decide
    exact listed word (List.mem_filterMap.mpr ⟨_, held, rfl⟩)

/-! The reader. -/

inductive Unfinished where
  | nothing
  | word (read : List Char)
  | number (read : List Char)
  | placeholder (read : List Char)
  | inQuotes (read : List Char)
  /-- The quotes have ended, unless another quote follows. -/
  | quoted (read : List Char)
  | symbol (read : List Char)
  deriving DecidableEq, Repr

namespace Unfinished

def start (char : Char) : Unfinished :=
  if char = ' ' then .nothing
  else if char = '"' then .inQuotes []
  else if char.isDigit then .number [char]
  else if isWordChar char then .word [char]
  else if char = '?' ∨ char = '$' then .placeholder [char]
  else .symbol [char]

def goOn? : Unfinished → Char → Option Unfinished
  | .nothing, _ => none
  | .word read, char => if isWordChar char then some (.word (read ++ [char])) else none
  | .number read, char => if char.isDigit then some (.number (read ++ [char])) else none
  | .placeholder read, char => if char.isDigit then some (.placeholder (read ++ [char])) else none
  | .inQuotes read, char => some (if char = '"' then .quoted read else .inQuotes (read ++ [char]))
  | .quoted read, char => if char = '"' then some (.inQuotes (read ++ [char])) else none
  | .symbol read, char =>
      if String.ofList (read ++ [char]) ∈ symbols then some (.symbol (read ++ [char])) else none

def finish : Unfinished → Option (List Token)
  | .nothing => some []
  | .word read => some [.ofWord read]
  | .number read => some [.number (String.ofList read)]
  | .placeholder read => if read = ['$'] then none else some [.placeholder (String.ofList read)]
  | .inQuotes _ => none
  | .quoted read => some [.name (String.ofList read)]
  | .symbol read =>
      if String.ofList read ∈ symbols then some [.symbol (String.ofList read)] else none

def after (held : Unfinished) (text : List Char) : Unfinished :=
  text.foldl (fun held char => (held.goOn? char).getD (start char)) held

end Unfinished

def lexFrom : Unfinished → List Char → Option (List Token)
  | held, [] => held.finish
  | held, char :: rest =>
      match held.goOn? char with
      | some longer => lexFrom longer rest
      | none => held.finish.bind fun ended => (lexFrom (.start char) rest).map (ended ++ ·)

def lex (text : List Char) : Option (List Token) :=
  lexFrom .nothing text

example : lex "WHERE \"a\"\"b\".by>=$12".toList =
    some [.keyword "where", .name "a\"b", .symbol ".", .keyword "by", .symbol ">=",
      .placeholder "$12"] := by
  decide

theorem lex_cons (char : Char) (rest : List Char) :
    lex (char :: rest) = lexFrom (.start char) rest := by
  simp [lex, lexFrom, Unfinished.goOn?, Unfinished.finish]

/-! Borders between texts. -/

theorem lexFrom_append {held : Unfinished} {first second : List Char} {tokens : List Token}
    (read : lexFrom held first = some tokens)
    (ends : ∀ char ∈ second.head?, (held.after first).goOn? char = none) :
    lexFrom held (first ++ second) = (lex second).map (tokens ++ ·) := by
  induction first generalizing held tokens with
  | nil =>
      change held.finish = some tokens at read
      cases second with
      | nil =>
          rw [List.append_nil, lexFrom, read]
          exact congrArg some (List.append_nil tokens).symm
      | cons char rest =>
          -- The border: what is unfinished here ends before the first character of the second text.
          have stays : held.goOn? char = none := ends char rfl
          simp [lexFrom, lex_cons, stays, read]
  | cons char rest ih =>
      rw [List.cons_append, lexFrom]
      rw [lexFrom] at read
      cases goes : held.goOn? char with
      | some longer =>
          simp only [goes] at read ⊢
          exact ih read (by simpa [Unfinished.after, goes] using ends)
      | none =>
          simp only [goes, Option.bind_eq_some_iff, Option.map_eq_some_iff] at read ⊢
          obtain ⟨ended, finished, others, later, rfl⟩ := read
          rw [finished, Option.bind_some, ih later (by simpa [Unfinished.after, goes] using ends),
            Option.map_map]
          simp only [Function.comp_def, List.append_assoc]

theorem finish_after {held : Unfinished} {text : List Char} {tokens : List Token}
    (read : lexFrom held text = some tokens) : ∃ last, (held.after text).finish = some last := by
  induction text generalizing held tokens with
  | nil => exact ⟨tokens, read⟩
  | cons char rest ih =>
      rw [lexFrom] at read
      cases goes : held.goOn? char with
      | some longer =>
          simp only [goes] at read
          simpa [Unfinished.after, goes] using ih read
      | none =>
          simp only [goes, Option.bind_eq_some_iff, Option.map_eq_some_iff] at read
          obtain ⟨_, _, _, later, _⟩ := read
          simpa [Unfinished.after, goes] using ih later

/-- The characters that no token goes on with, unless it is in quotes. -/
def isBreak (char : Char) : Bool :=
  char ∈ [' ', '.', ',', '(', ')']

/-- A text before which every token has ended. -/
def StartsApart (text : List Char) : Prop :=
  ∀ char ∈ text.head?, isBreak char = true

theorem length_of_break {read : List Char} (listed : String.ofList read ∈ symbols) {char : Char}
    (held : char ∈ read) (breaks : isBreak char = true) : read.length = 1 := by
  have each : ∀ text ∈ symbols, text.toList.any isBreak = true → text.toList.length = 1 := by decide
  have short := each _ listed
  rw [String.toList_ofList] at short
  exact short (List.any_eq_true.mpr ⟨char, held, breaks⟩)

theorem goOn?_break {held : Unfinished} {last : List Token} {char : Char}
    (finished : held.finish = some last) (breaks : isBreak char = true) :
    held.goOn? char = none := by
  have among : char = ' ' ∨ char = '.' ∨ char = ',' ∨ char = '(' ∨ char = ')' := by
    simpa [isBreak] using breaks
  obtain ⟨notWord, notDigit, notQuote⟩ : isWordChar char = false ∧ char.isDigit = false ∧
      char ≠ '"' := by
    rcases among with rfl | rfl | rfl | rfl | rfl <;> decide
  cases held with
  | nothing => rfl
  | word => simp [Unfinished.goOn?, notWord]
  | number | placeholder => simp [Unfinished.goOn?, notDigit]
  | inQuotes => cases finished
  | quoted => simp [Unfinished.goOn?, notQuote]
  | symbol read =>
      refine if_neg fun listed => ?_
      -- Nothing comes before the break in a symbol, and nothing is no symbol by itself.
      have alone := length_of_break listed (by simp) breaks
      obtain rfl : read = [] := by simpa using alone
      cases finished

theorem lex_append_of_startsApart {first second : List Char} {tokens : List Token}
    (read : lex first = some tokens) (apart : StartsApart second) :
    lex (first ++ second) = (lex second).map (tokens ++ ·) := by
  obtain ⟨last, finished⟩ := finish_after read
  exact lexFrom_append read fun char starts => goOn?_break finished (apart char starts)

def Unfinished.hasEnded : Unfinished → Bool
  | .nothing => true
  | .symbol [char] => isBreak char
  | _ => false

/-- A text after which every token has ended. -/
def EndsApart (text : List Char) : Prop :=
  (Unfinished.nothing.after text).hasEnded = true

theorem goOn?_of_hasEnded {held : Unfinished} (ended : held.hasEnded = true) (char : Char) :
    held.goOn? char = none := by
  match held with
  | .nothing => rfl
  | .symbol [first] =>
      refine if_neg fun listed => ?_
      have alone := length_of_break listed List.mem_cons_self ended
      cases alone

theorem lex_append_of_endsApart {first second : List Char} {tokens : List Token}
    (read : lex first = some tokens) (apart : EndsApart first) :
    lex (first ++ second) = (lex second).map (tokens ++ ·) :=
  lexFrom_append read fun char _ => goOn?_of_hasEnded apart char

/-! The texts of parts. -/

theorem lex_fragment (fixed : Fragment) : lex fixed.text.toList = some fixed.tokens := by
  cases fixed with
  | comparison operator => cases operator <;> rfl
  | direction order => cases order <;> rfl
  | _ => rfl

theorem lexFrom_of_goOn? (token : List Char → Unfinished) {text : List Char}
    (goes : ∀ read, ∀ char ∈ text, (token read).goOn? char = some (token (read ++ [char])))
    (read : List Char) :
    lexFrom (token read) text = (token (read ++ text)).finish := by
  induction text generalizing read with
  | nil => rw [List.append_nil, lexFrom]
  | cons char rest ih =>
      have tail :=
        ih (fun read char held => goes read char (List.mem_cons_of_mem _ held)) (read ++ [char])
      rw [lexFrom, goes read char List.mem_cons_self]
      simpa using tail

theorem lex_word {word : List Char} (plain : isPlainWord word = true) :
    lex word = some [.ofWord word] := by
  cases word with
  | nil => cases plain
  | cons first rest =>
      simp only [isPlainWord, Bool.and_eq_true, Bool.not_eq_true', List.all_eq_true] at plain
      obtain ⟨⟨notDigit, begins⟩, goes⟩ := plain
      have notSpace : first ≠ ' ' := by rintro rfl; cases begins
      have notQuote : first ≠ '"' := by rintro rfl; cases begins
      have starts : Unfinished.start first = .word [first] := by
        simp [Unfinished.start, notSpace, notQuote, notDigit, begins]
      rw [lex_cons, starts]
      exact lexFrom_of_goOn? .word (fun read char held => if_pos (goes char held)) [first]

theorem lexFrom_doubledQuotes (read name : List Char) :
    lexFrom (.inQuotes read) (doubledQuotes name ++ ['"']) =
      some [.name (String.ofList (read ++ name))] := by
  induction name generalizing read with
  | nil => simp [doubledQuotes, lexFrom, Unfinished.goOn?, Unfinished.finish]
  | cons char rest ih =>
      have tail := ih (read ++ [char])
      rw [List.append_assoc, List.singleton_append] at tail
      by_cases quote : char = '"'
      · subst quote
        simpa [doubledQuotes, lexFrom, Unfinished.goOn?] using tail
      · simpa [doubledQuotes, lexFrom, Unfinished.goOn?, quote] using tail

theorem lex_quoted (name : List Char) : lex (quoted name) = some [.name (String.ofList name)] := by
  rw [quoted, List.cons_append, lex_cons]
  exact lexFrom_doubledQuotes [] name

theorem isPlainWord_of_unquoted {name : List Char} (free : ¬ needsQuotes name = true) :
    isPlainWord name = true := by
  simp only [needsQuotes, Bool.or_eq_true, Bool.not_eq_true', not_or, Bool.not_eq_false] at free
  exact free.right

theorem lex_identifier (name : String) :
    lex (identifier name.toList) = some [.ofIdentifier name] := by
  rw [identifier, Token.ofIdentifier]
  split
  · rw [lex_quoted, String.ofList_toList]
  · rename_i free
    exact lex_word (isPlainWord_of_unquoted free)

/-- The keywords that a name can be without getting quotes. -/
def unguarded : List String := ["by", "asc", "desc"]

theorem mem_unguarded_iff {word : String} :
    word ∈ unguarded ↔ word ∈ keywords ∧ word ∉ reservedWords := by
  have there : ∀ word ∈ unguarded, word ∈ keywords ∧ word ∉ reservedWords := by decide
  have back : ∀ word ∈ keywords, word ∉ reservedWords → word ∈ unguarded := by decide
  exact ⟨there word, fun ⟨listed, free⟩ => back word listed free⟩

theorem isReserved_iff {name : List Char} : isReserved name = true ↔
    lower name ∈ reservedWords := by
  rw [isReserved, List.any_eq_true, lower]
  constructor
  · rintro ⟨word, listed, same⟩
    rwa [← of_decide_eq_true same, String.ofList_toList]
  · intro listed
    exact ⟨_, listed, decide_eq_true String.toList_ofList⟩

theorem isPlainWord_of_keyword {name : List Char} (listed : lower name ∈ keywords) :
    isPlainWord name = true := by
  have each : ∀ word ∈ keywords, word.toList ≠ [] ∧ word.toList.all Char.isAlpha = true := by decide
  obtain ⟨nonempty, letters⟩ := each _ listed
  simp only [lower, String.toList_ofList, ne_eq, List.map_eq_nil_iff, List.all_eq_true,
    List.forall_mem_map, Char.isAlpha_toLower_eq_isAlpha] at nonempty letters
  cases name with
  | nil => contradiction
  | cons first rest =>
      have apart : first.isDigit = false := by
        have letter := letters first List.mem_cons_self
        simp only [Char.isAlpha, Char.isUpper, Char.isLower, Char.isDigit,
          UInt32.le_iff_toNat_le, ge_iff_le, Char.toNat_val, Char.reduceVal, UInt32.reduceToNat,
          Bool.or_eq_true, Bool.and_eq_true, decide_eq_true_eq, Bool.and_eq_false_imp,
          decide_eq_false_iff_not] at letter ⊢
        omega
      have each : ∀ char ∈ first :: rest, isWordChar char = true := fun char held => by
        simp [isWordChar, Char.isAlphanum, letters char held]
      simpa [isPlainWord, apart] using each

theorem ofIdentifier_eq_name_iff {name : String} :
    Token.ofIdentifier name = .name name ↔ lower name.toList ∉ unguarded := by
  rw [Token.ofIdentifier, Token.ofWord, mem_unguarded_iff, needsQuotes]
  by_cases listed : lower name.toList ∈ keywords
  · simp [listed, isPlainWord_of_keyword listed, ← isReserved_iff]
  · simp [listed]

theorem lex_placeholder (dialect : Dialect) (index : Nat) :
    lex (dialect.placeholder index) =
      some [.placeholder (String.ofList (dialect.placeholder index))] := by
  cases dialect with
  | postgresql =>
      have goes : ∀ char ∈ Text.natural index, char.isDigit = true := fun char held =>
        Nat.isDigit_of_mem_toDigits (by decide) (by decide) held
      have more : Text.natural index ≠ [] := Nat.toDigits_ne_nil
      have whole :=
        lexFrom_of_goOn? .placeholder (fun read char held => if_pos (goes char held)) ['$']
      simpa [Dialect.placeholder, lex_cons, Unfinished.start, isWordChar, Unfinished.finish,
        more] using whole
  | mysql | sqlite => rfl

end FilterQuery.Sql
