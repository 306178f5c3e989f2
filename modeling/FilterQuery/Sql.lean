import FilterQuery.Sql.Part

/-!
Columns, joins and conditions as parts of SQL.
-/

namespace FilterQuery.Sql

def column (column : ColumnRef) : List Part :=
  [.identifier column.qualifier, .fragment .dot, .identifier column.column]

-- A table bound to its own name needs no second one.
def table (name binding : String) : List Part :=
  if name = binding then [.identifier name]
  else [.identifier name, .fragment .named, .identifier binding]

def separated (separator : Fragment) : List (List Part) → List Part
  | [] => []
  | [first] => first
  | first :: next :: rest => first ++ .fragment separator :: separated separator (next :: rest)

def equality (pair : KeyPair) : List Part :=
  column pair.1 ++ .fragment (.comparison .equal) :: column pair.2

def equalities (pairs : List KeyPair) : List Part :=
  separated .and (pairs.map equality)

def innerJoin (name binding : String) (keys : List KeyPair) : List Part :=
  .fragment .innerJoin :: table name binding ++ .fragment .matching :: equalities keys

/-- The link table comes before the table that it leads to. -/
def join (join : Join) : List Part :=
  (match join.link with
    | some link => innerJoin link.table link.binding link.keys
    | none => []) ++
    innerJoin join.table join.binding join.keys

/-- The tables of a subquery, and the equalities that tie it to the row outside. -/
def related (join : Join) : List Part × List KeyPair :=
  match join.link with
  | some link =>
      (table link.table link.binding ++ innerJoin join.table join.binding join.keys, link.keys)
  | none => (table join.table join.binding, join.keys)

def literal : Bool → List Part
  | true => [.fragment .truth]
  | false => [.fragment .falsity]

mutual

def condition : Condition → List Part
  | .literal value => literal value
  | .compare left comparison value =>
      column left ++ [.fragment (.comparison comparison), .parameter value]
  | .isNull tested false => column tested ++ [.fragment .isNull]
  | .isNull tested true => column tested ++ [.fragment .isNotNull]
  | .isIn tested values =>
      column tested ++ .fragment .inLeftParen ::
        separated .comma (values.map fun value => [.parameter value]) ++ [.fragment .rightParen]
  | .like tested pattern => column tested ++ [.fragment .like, .parameter (.text pattern)]
  | .someRelated join inner =>
      let (tables, correlation) := related join
      .fragment .existsOpen :: tables ++ .fragment .filtered :: equalities correlation ++
        .fragment .andLeftParen :: condition inner ++ [.fragment .rightParenTwice]
  | .group inner => .fragment .leftParen :: condition inner ++ [.fragment .rightParen]
  | .all [] => literal true
  | .all (first :: rest) => condition first ++ conditionsAfter .and rest
  | .any [] => literal false
  | .any (first :: rest) => condition first ++ conditionsAfter .or rest

def conditionsAfter (connective : Fragment) : List Condition → List Part
  | [] => []
  | next :: rest => .fragment connective :: condition next ++ conditionsAfter connective rest

end

end FilterQuery.Sql
