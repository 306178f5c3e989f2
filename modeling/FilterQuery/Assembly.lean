import FilterQuery.Fault.Report
import FilterQuery.QueryPlan

/-!
From a request to a query plan. The filters are read first, then the root is looked up, the joins
are planned, the condition is built and the order is resolved; the first fault on the way is the
answer.
-/

namespace FilterQuery

structure Request where
  filters : List RawFilter := []
  names : Option PropertyMap := none
  sort : SortRequest := .unordered
  directions : DirectionRequest := .every false
  deriving Repr

namespace PropertyMap

def ofJson? : Json → Option PropertyMap
  | .object members =>
      let names := members.mapM fun (name, value) => (Json.text? value).map (name, ·)
      names.map fun entries => ⟨Dictionary.ofList entries⟩
  | _ => none

end PropertyMap

namespace Request

def fieldNames : List String :=
  ["filters", "property_map", "order_by", "is_desc"]

def optionalNames? : Json → Option (Option PropertyMap)
  | .null => some none
  | json => (PropertyMap.ofJson? json).map some

def orDefault {Content : Type} (standard : Content) (read : Json → Option Content) :
    Option Json → Option Content
  | none => some standard
  | some json => read json

def ofJson? (json : Json) : Option Request := do
  match ← json.record? fieldNames with
  | [filters, names, sort, directions] =>
      let filters ← orDefault [] (fun json => do (← Json.list? json).mapM RawFilter.ofJson?) filters
      let names ← orDefault none optionalNames? names
      let sort ← orDefault .unordered SortRequest.ofJson? sort
      let directions ← orDefault (.every false) DirectionRequest.ofJson? directions
      some ⟨filters, names, sort, directions⟩
  | _ => none

/-- Reads the JSON text of a request. Members under other names are not looked into. -/
def read (text : String) : Except Fault Request :=
  match (Json.readRecord? fieldNames text).bind ofJson? with
  | some request => .ok request
  | none => .error (.unreadableFilters "")

end Request

namespace JoinPlan

def planLeaves (graph : RelationGraph) (names : PropertyMap) (start : JoinPlan) :
    List Leaf → Except Fault JoinPlan
  | [] => .ok start
  | leaf :: rest =>
      match start.plan graph names leaf.joinSegments leaf.group with
      | (_, .error fault) => .error fault
      | (next, .ok _) => planLeaves graph names next rest

end JoinPlan

structure Assembler where
  schema : Schema
  settings : Settings := {}

namespace Assembler

-- A map that a request brings counts even when it is empty, and hides the one of the settings.
def effectiveNames (assembler : Assembler) (names : Option PropertyMap) : PropertyMap :=
  names.getD assembler.settings.names

/-- All entries of a request must hold, so several of them are one conjunction. -/
def tree : List Node → Option Node
  | [] => none
  | [only] => some only
  | first :: rest => some (.composite .and first rest)

def joinsAndCondition (assembler : Assembler) (root : Entity) (names : PropertyMap) :
    Option Node → Except Fault (JoinPlan × Option Condition)
  | none => .ok (.new root assembler.settings.joinScope, none)
  | some node => do
      let start := JoinPlan.new root assembler.settings.joinScope
      let plan ← start.planLeaves assembler.schema names node.leaves
      let (condition, _) := (Planned.mk assembler.schema names plan).build node 0
      .ok (plan, some (← condition))

def orderClauses (assembler : Assembler) (root : Entity) (names : PropertyMap)
    (sort : SortRequest) (directions : DirectionRequest) : Except Fault (List OrderClause) := do
  let keys := sort.keys
  let flags ← directions.flags keys.length
  if flags.length = keys.length then
    (keys.zip flags).mapM fun (key, descending) => do
      let column ← assembler.schema.column root.name (key.resolve names)
      .ok ⟨⟨root.table, column⟩, .ofDescending descending⟩
  else .error (.lengthMismatch keys.length flags.length)

def assembleNodes (assembler : Assembler) (rootName : String) (nodes : List Node)
    (names : Option PropertyMap) (sort : SortRequest) (directions : DirectionRequest) :
    Except Fault QueryPlan := do
  let names := assembler.effectiveNames names
  let root ← assembler.schema.entity rootName
  let (plan, condition) ← assembler.joinsAndCondition root names (tree nodes)
  let orderBy ← assembler.orderClauses root names sort directions
  .ok {
    entity := root.name
    table := root.table
    binding := plan.root.binding
    joins := plan.joins
    condition := condition
    orderBy := orderBy
    distinct := plan.fansOut
    dialect := assembler.settings.dialect }

def assemble (assembler : Assembler) (rootName : String) (request : Request) :
    Except Fault QueryPlan := do
  let nodes ← Node.ofRawAll assembler.settings.defaultGroup request.filters
  assembler.assembleNodes rootName nodes request.names request.sort request.directions

def assembleText (assembler : Assembler) (rootName text : String) : Except Fault QueryPlan := do
  let request ← Request.read text
  assembler.assemble rootName request

end Assembler

abbrev Engine (Effect : Type → Type) (Row : Type) :=
  QueryPlan → Effect (Except Report (List Row))

namespace Assembler

/-- The rows of a request. The engine is not asked when there is no plan. -/
def fetch {Effect : Type → Type} [Monad Effect] {Row : Type} (assembler : Assembler)
    (engine : Engine Effect Row) (rootName : String) (request : Request) :
    Effect (Except Report (List Row)) :=
  match assembler.assemble rootName request with
  | .ok plan => engine plan
  | .error fault => pure (.error fault.report)

end Assembler

end FilterQuery
