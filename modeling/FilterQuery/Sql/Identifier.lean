/-!
Names as SQL identifiers. A name stands by itself when it is a plain word that the language has no
use for, and in double quotes otherwise; a quote inside is written twice, so no name can end its own
quotes.
-/

namespace FilterQuery.Sql

def reservedWords : List String := [
  "user", "order", "group", "select", "from", "where", "table", "index",
  "key", "primary", "foreign", "check", "default", "null", "not", "and",
  "or", "in", "is", "like", "between", "case", "when", "then", "else",
  "end", "as", "on", "join", "left", "right", "inner", "outer", "cross",
  "natural", "using", "limit", "offset", "union", "intersect", "except",
  "all", "distinct", "having", "exists", "values", "set"]

-- Folding ASCII letters is enough: a name with any other letter is quoted for that letter.
def isReserved (name : List Char) : Bool :=
  reservedWords.any fun word => word.toList = name.map Char.toLower

def isWordChar (char : Char) : Bool :=
  char.isAlphanum || char == '_'

def isPlainWord : List Char → Bool
  | [] => false
  | first :: rest => !first.isDigit && isWordChar first && rest.all isWordChar

def needsQuotes (name : List Char) : Bool :=
  isReserved name || !isPlainWord name

def doubledQuotes : List Char → List Char
  | [] => []
  | char :: rest =>
      if char = '"' then '"' :: '"' :: doubledQuotes rest else char :: doubledQuotes rest

def quoted (name : List Char) : List Char :=
  '"' :: doubledQuotes name ++ ['"']

def identifier (name : List Char) : List Char :=
  if needsQuotes name then quoted name else name

end FilterQuery.Sql
