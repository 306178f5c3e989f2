import FilterQuery.Filter
import FilterQuery.JoinPlan

/-!
The condition of a query: a tree of comparisons on columns. A filter tree becomes a condition once
its paths are planned; each child of a composite stands in a group of its own there, so that no
connective can take over a part of its neighbour.
-/

namespace FilterQuery

inductive Comparison where
  | equal
  | notEqual
  | less
  | lessOrEqual
  | greater
  | greaterOrEqual
  deriving DecidableEq, Repr

namespace Comparison

def symbol : Comparison → String
  | .equal => "="
  | .notEqual => "!="
  | .less => "<"
  | .lessOrEqual => "<="
  | .greater => ">"
  | .greaterOrEqual => ">="

end Comparison

inductive Condition where
  | literal (value : Bool)
  | compare (column : ColumnRef) (comparison : Comparison) (value : Value)
  | isNull (column : ColumnRef) (negated : Bool)
  | isIn (column : ColumnRef) (values : List Value)
  | like (column : ColumnRef) (pattern : String)
  | someRelated (join : Join) (condition : Condition)
  | group (inner : Condition)
  | all (parts : List Condition)
  | any (parts : List Condition)
  deriving Repr

namespace Condition

/-- Membership; nothing is a member of an empty list. -/
def member (column : ColumnRef) (values : List Value) : Condition :=
  if values.isEmpty then .literal false else .isIn column values

/-- Equality with any value: a null asks for the absence of a value, a list for one of its items. -/
def equals (column : ColumnRef) : Value → Condition
  | .null => .isNull column false
  | .list values => member column values
  | value => .compare column .equal value

def differs (column : ColumnRef) : Value → Condition
  | .null => .isNull column true
  | value => .compare column .notEqual value

end Condition

structure Planned where
  graph : RelationGraph
  names : PropertyMap
  plan : JoinPlan

namespace Planned

def column (planned : Planned) (target : Target) (name : String) : Except Fault ColumnRef := do
  let column ← planned.graph.column target.entity (planned.names.resolve name)
  .ok ⟨target.binding, column⟩

/-- The condition that a leaf puts on a column. Of a single column `contains` asks what `=` asks. -/
def onColumn (leaf : Leaf) (column : ColumnRef) : Except Fault Condition :=
  match leaf.operator with
  | .equals | .contains => .ok (.equals column leaf.value)
  | .notEquals => .ok (.differs column leaf.value)
  | .less => .ok (.compare column .less leaf.value)
  | .lessOrEqual => .ok (.compare column .lessOrEqual leaf.value)
  | .greater => .ok (.compare column .greater leaf.value)
  | .greaterOrEqual => .ok (.compare column .greaterOrEqual leaf.value)
  | .isIn =>
      match leaf.value with
      | .list values => .ok (.member column values)
      | _ => .error leaf.refusal
  | .like =>
      match leaf.value with
      | .text pattern => .ok (.like column pattern)
      | _ => .error leaf.refusal

def subqueryBinding (number : Nat) : String :=
  "s" ++ Text.naturalText number

/-- The collection that `contains` searches, and the attribute of its rows that is compared, if one
is named. -/
def collection (path : FieldPath) : String × Option String :=
  match path.relations.getLast? with
  | some relation => (relation, some path.attributeName)
  | none => (path.attributeName, none)

-- Without a named attribute the key of the related row is compared.
def relatedColumn (planned : Planned) (join : Join) : Option String → Except Fault ColumnRef
  | some name => planned.column join.target name
  | none => do
      let entity ← planned.graph.entity join.entity
      .ok ⟨join.binding, entity.primaryKey⟩

def search (planned : Planned) (leaf : Leaf) (target : Target) (relation : Relation)
    (named : Option String) (number : Nat) : Except Fault Condition := do
  let join ← Join.resolve planned.graph target relation (subqueryBinding number)
  let column ← planned.relatedColumn join named
  .ok (.someRelated join (.equals column leaf.value))

/-- The result comes with the number of subqueries so far. A subquery takes its number once its
relation is known, whether or not the rest of it can be built. -/
def buildContains (planned : Planned) (leaf : Leaf) (target : Target) (subqueries : Nat) :
    Except Fault Condition × Nat :=
  let (relation, named) := collection leaf.path
  match planned.graph.relation target.entity (planned.names.resolve relation) with
  | .error fault => (.error fault, subqueries)
  | .ok declared => (planned.search leaf target declared named (subqueries + 1), subqueries + 1)

def buildLeaf (planned : Planned) (leaf : Leaf) (subqueries : Nat) :
    Except Fault Condition × Nat :=
  match planned.plan.target planned.names leaf.joinSegments leaf.group with
  | .error fault => (.error fault, subqueries)
  | .ok target =>
      if leaf.operator = .contains then planned.buildContains leaf target subqueries
      else
        (do onColumn leaf (← planned.column target leaf.path.attributeName), subqueries)

def combine : Combinator → List Condition → Condition
  | .and, parts => .all parts
  | .or, parts => .any parts

mutual

def build (planned : Planned) : Node → Nat → Except Fault Condition × Nat
  | .leaf leaf, subqueries => planned.buildLeaf leaf subqueries
  | .composite combinator first rest, subqueries =>
      match planned.build first subqueries with
      | (.error fault, subqueries) => (.error fault, subqueries)
      | (.ok condition, subqueries) =>
          match planned.buildGroups rest subqueries with
          | (.error fault, subqueries) => (.error fault, subqueries)
          | (.ok conditions, subqueries) =>
              (.ok (combine combinator (.group condition :: conditions)), subqueries)

def buildGroups (planned : Planned) :
    List Node → Nat → Except Fault (List Condition) × Nat
  | [], subqueries => (.ok [], subqueries)
  | node :: rest, subqueries =>
      match planned.build node subqueries with
      | (.error fault, subqueries) => (.error fault, subqueries)
      | (.ok condition, subqueries) =>
          match planned.buildGroups rest subqueries with
          | (.error fault, subqueries) => (.error fault, subqueries)
          | (.ok conditions, subqueries) => (.ok (.group condition :: conditions), subqueries)

end

end Planned

end FilterQuery
