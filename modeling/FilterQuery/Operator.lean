import FilterQuery.Value

/-!
The operators of single conditions, each with the values it can compare with, and the two ways to
combine conditions.
-/

namespace FilterQuery

inductive Operator where
  | less
  | lessOrEqual
  | greater
  | greaterOrEqual
  | equals
  | notEquals
  | isIn
  | like
  /-- Some member of a related collection has the value. -/
  | contains
  deriving DecidableEq, Repr

namespace Operator

def all : List Operator :=
  [.less, .lessOrEqual, .greater, .greaterOrEqual, .equals, .notEquals, .isIn, .like, .contains]

def symbol : Operator → String
  | .less => "<"
  | .lessOrEqual => "<="
  | .greater => ">"
  | .greaterOrEqual => ">="
  | .equals => "="
  | .notEquals => "!="
  | .isIn => "in"
  | .like => "like"
  | .contains => "contains"

def ofSymbol? (symbol : String) : Option Operator :=
  all.find? (·.symbol = symbol)

def accepts : Operator → Value → Bool
  | .less, value | .lessOrEqual, value | .greater, value | .greaterOrEqual, value =>
      match value with
      | .integer _ | .float _ | .date _ | .dateTime _ => true
      | _ => false
  | .equals, value | .notEquals, value =>
      match value with
      | .null | .truth _ | .integer _ | .text _ | .date _ | .dateTime _ => true
      | _ => false
  | .isIn, value => value.isList
  | .like, value =>
      match value with
      | .text _ => true
      | _ => false
  | .contains, _ => true

def expectation : Operator → String
  | .less | .lessOrEqual | .greater | .greaterOrEqual =>
      "an ordinal value (integer, float, date or datetime)"
  | .equals | .notEquals => "a string, integer, boolean, date, datetime or null value"
  | .isIn => "a list of values"
  | .like => "a string pattern"
  | .contains => "any value"

theorem ofSymbol?_symbol (operator : Operator) : ofSymbol? operator.symbol = some operator := by
  cases operator <;> decide

-- No other text names an operator, also not one with blanks or capitals.
theorem ofSymbol?_eq_some_iff (text : String) (operator : Operator) :
    ofSymbol? text = some operator ↔ operator.symbol = text := by
  constructor
  · intro found
    rw [ofSymbol?] at found
    simpa using List.find?_some found
  · rintro rfl
    exact ofSymbol?_symbol operator

end Operator

inductive Combinator where
  | and
  | or
  deriving DecidableEq, Repr

namespace Combinator

def symbol : Combinator → String
  | .and => "and"
  | .or => "or"

def ofSymbol? (symbol : String) : Option Combinator :=
  if symbol = "and" then some .and
  else if symbol = "or" then some .or
  else none

theorem ofSymbol?_symbol (combinator : Combinator) :
    ofSymbol? combinator.symbol = some combinator := by
  cases combinator <;> decide

theorem ofSymbol?_eq_some_iff (text : String) (combinator : Combinator) :
    ofSymbol? text = some combinator ↔ combinator.symbol = text := by
  constructor
  · intro found
    unfold ofSymbol? at found
    split at found
    · rename_i isAnd
      cases found
      exact isAnd.symm
    · split at found
      · rename_i isOr
        cases found
        exact isOr.symm
      · cases found
  · rintro rfl
    exact ofSymbol?_symbol combinator

end Combinator

end FilterQuery
