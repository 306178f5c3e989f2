import FilterQuery.Condition
import FilterQuery.SortOrder
import FilterQuery.Sql.Identifier

/-!
SQL as a list of parts. Values are parts of their own: a placeholder stands for each in the text,
numbered from the left, and the values by themselves are the parameters. So the text never shows a
value, and the parameters are in the order of the placeholders.
-/

namespace FilterQuery

inductive Dialect where
  | postgresql
  | mysql
  | sqlite
  deriving DecidableEq, Repr

namespace Dialect

def name : Dialect → String
  | .postgresql => "postgresql"
  | .mysql => "mysql"
  | .sqlite => "sqlite"

def ofName? (name : String) : Option Dialect :=
  if name = "postgresql" ∨ name = "postgres" then some .postgresql
  else if name = "mysql" then some .mysql
  else if name = "sqlite" ∨ name = "sqlite3" then some .sqlite
  else none

def placeholder (dialect : Dialect) (index : Nat) : List Char :=
  match dialect with
  | .postgresql => '$' :: Text.natural index
  | .mysql | .sqlite => ['?']

end Dialect

namespace Sql

/-- The fixed pieces of a statement, with the spaces that set them off. -/
inductive Fragment where
  | select
  | distinct
  | allColumnsFrom
  | named
  | dot
  | innerJoin
  | matching
  | filtered
  | and
  | or
  | comparison (comparison : Comparison)
  | isNull
  | isNotNull
  | inLeftParen
  | comma
  | like
  | leftParen
  | rightParen
  | truth
  | falsity
  | existsOpen
  | andLeftParen
  | rightParenTwice
  | orderBy
  | space
  | direction (order : SortOrder)
  deriving DecidableEq, Repr

namespace Fragment

def text : Fragment → String
  | .select => "SELECT "
  | .distinct => "DISTINCT "
  | .allColumnsFrom => ".* FROM "
  | .named => " AS "
  | .dot => "."
  | .innerJoin => " INNER JOIN "
  | .matching => " ON "
  | .filtered => " WHERE "
  | .and => " AND "
  | .or => " OR "
  | .comparison operator => " " ++ operator.symbol ++ " "
  | .isNull => " IS NULL"
  | .isNotNull => " IS NOT NULL"
  | .inLeftParen => " IN ("
  | .comma => ", "
  | .like => " LIKE "
  | .leftParen => "("
  | .rightParen => ")"
  | .truth => "1 = 1"
  | .falsity => "1 = 0"
  | .existsOpen => "EXISTS (SELECT 1 FROM "
  | .andLeftParen => " AND ("
  | .rightParenTwice => "))"
  | .orderBy => " ORDER BY "
  | .space => " "
  | .direction order => order.keyword

end Fragment

inductive Part where
  | fragment (fragment : Fragment)
  | identifier (name : String)
  | parameter (value : Value)
  /-- Text that a caller vouches for. -/
  | verbatim (text : String)
  deriving Repr

namespace Part

def value? : Part → Option Value
  | .parameter value => some value
  | _ => none

end Part

/-- The text of parts, the first placeholder among them having the given number. -/
def textFrom (dialect : Dialect) : Nat → List Part → List Char
  | _, [] => []
  | next, .parameter _ :: rest => dialect.placeholder next ++ textFrom dialect (next + 1) rest
  | next, .fragment fixed :: rest => fixed.text.toList ++ textFrom dialect next rest
  | next, .identifier name :: rest => identifier name.toList ++ textFrom dialect next rest
  | next, .verbatim text :: rest => text.toList ++ textFrom dialect next rest

def text (dialect : Dialect) (parts : List Part) : String :=
  String.ofList (textFrom dialect 1 parts)

def parameters (parts : List Part) : List Value :=
  parts.filterMap Part.value?

end Sql

end FilterQuery
