import FilterQuery.Settings
import FilterQuery.Sorting
import FilterQuery.Sql

/-!
A query ready to run: tables, condition and order, and the SQL that says the same.
-/

namespace FilterQuery

structure OrderClause where
  column : ColumnRef
  order : SortOrder
  deriving DecidableEq, Repr

structure QueryPlan where
  entity : String
  table : String
  binding : String
  joins : List Join
  /-- Nothing is asked of the rows when it is absent. -/
  condition : Option Condition
  orderBy : List OrderClause
  /-- A root row that is reached several times counts once. -/
  distinct : Bool
  dialect : Dialect
  deriving Repr

namespace QueryPlan

def orderParts : List OrderClause → List Sql.Part
  | [] => []
  | clauses =>
      .fragment .orderBy :: Sql.separated .comma
        (clauses.map fun clause =>
          Sql.column clause.column ++ [.fragment .space, .fragment (.direction clause.order)])

def parts (plan : QueryPlan) : List Sql.Part :=
  .fragment .select :: (if plan.distinct then [.fragment .distinct] else []) ++
    .identifier plan.binding :: .fragment .allColumnsFrom ::
    Sql.table plan.table plan.binding ++
    plan.joins.flatMap Sql.join ++
    (match plan.condition with
      | some condition => .fragment .filtered :: Sql.condition condition
      | none => []) ++
    orderParts plan.orderBy

def sql (plan : QueryPlan) (dialect : Dialect) : String :=
  Sql.text dialect plan.parts

def parameters (plan : QueryPlan) : List Value :=
  Sql.parameters plan.parts

end QueryPlan

end FilterQuery
