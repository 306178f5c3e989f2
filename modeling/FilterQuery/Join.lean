import FilterQuery.Schema

/-!
One step along a relation, resolved to tables and key columns.
-/

namespace FilterQuery

structure ColumnRef where
  qualifier : String
  column : String
  deriving DecidableEq, Repr

structure Target where
  entity : String
  binding : String
  deriving DecidableEq, Repr

abbrev KeyPair := ColumnRef × ColumnRef

structure LinkHop where
  table : String
  binding : String
  /-- From the parent to the link table. -/
  keys : List KeyPair
  deriving DecidableEq, Repr

structure Join where
  relation : String
  kind : RelationKind
  entity : String
  table : String
  binding : String
  link : Option LinkHop
  /-- From the parent, or from the link table when there is one, to the related table. -/
  keys : List KeyPair
  deriving DecidableEq, Repr

namespace Join

def target (join : Join) : Target :=
  ⟨join.entity, join.binding⟩

def orKey (columns : List String) (entity : Entity) : List String :=
  if columns.isEmpty then [entity.primaryKey] else columns

-- A link table has one column for each side, so only the first column of each list can be linked.
def firstOrKey (columns : List String) (entity : Entity) : String :=
  columns.headD entity.primaryKey

def missingSide (relation : Relation) : Option KeySide :=
  match relation.kind with
  | .manyToOne => if relation.fields.isEmpty then some .fields else none
  | .oneToOne | .oneToMany => if relation.references.isEmpty then some .references else none
  | .manyToMany => none

/-- The column pairs of a relation without link table. The side that need not name its columns has
its primary key for them. -/
def keyColumns (relation : Relation) (parent related : Entity) :
    Except Fault (List (String × String)) :=
  match missingSide relation with
  | some side =>
      .error (.configuration (.missingForeignKey parent.name relation.name relation.kind side))
  | none =>
      let fields := orKey relation.fields parent
      let references := orKey relation.references related
      if fields.length = references.length then .ok (fields.zip references)
      else .error (.configuration
        (.unpairedKeys parent.name relation.name fields.length references.length))

def linkBinding (binding : String) : String :=
  binding ++ "_link"

def resolve (graph : RelationGraph) (parent : Target) (relation : Relation) (binding : String) :
    Except Fault Join := do
  let parentEntity ← graph.entity parent.entity
  let related ← graph.entity relation.related
  match relation.link with
  | some link =>
      let through := linkBinding binding
      .ok {
        relation := relation.name
        kind := relation.kind
        entity := related.name
        table := related.table
        binding := binding
        link := some {
          table := link.table
          binding := through
          keys := [(⟨parent.binding, firstOrKey relation.fields parentEntity⟩,
            ⟨through, link.sourceColumn⟩)] }
        keys := [(⟨through, link.targetColumn⟩,
          ⟨binding, firstOrKey relation.references related⟩)] }
  | none =>
      let columns ← keyColumns relation parentEntity related
      .ok {
        relation := relation.name
        kind := relation.kind
        entity := related.name
        table := related.table
        binding := binding
        link := none
        keys := columns.map fun (own, other) => (⟨parent.binding, own⟩, ⟨binding, other⟩) }

end Join

end FilterQuery
