import FilterQuery.Dictionary
import FilterQuery.Fault

/-!
Entities with their tables, attributes and relations, and the look-ups that can fail. A schema is
built once and then only read, through the three questions of a relation graph.
-/

namespace FilterQuery

structure LinkTable where
  table : String
  sourceColumn : String
  targetColumn : String
  deriving DecidableEq, Repr

/-- `fields` are key columns of the owning entity, `references` the columns of the related one that
they equal. A relation is kept as declared, whether or not its kind, its columns and its link table
fit together. -/
structure Relation where
  name : String
  kind : RelationKind
  related : String
  fields : List String := []
  references : List String := []
  link : Option LinkTable := none
  deriving DecidableEq, Repr

structure Entity where
  name : String
  table : String
  primaryKey : String
  attributes : Dictionary String
  relations : Dictionary Relation
  deriving Repr

namespace Entity

/-- A new entity has the one attribute `id`, which is its primary key. -/
def new (name table : String) : Entity where
  name := name
  table := table
  primaryKey := "id"
  attributes := Dictionary.empty.insert "id" "id"
  relations := .empty

def withColumn (entity : Entity) (attributeName column : String) : Entity :=
  { entity with attributes := entity.attributes.insert attributeName column }

def withAttribute (entity : Entity) (name : String) : Entity :=
  entity.withColumn name name

def withAttributes (entity : Entity) (names : List String) : Entity :=
  names.foldl withAttribute entity

/-- The new key column is an attribute; the attribute with the name of the old one is gone. -/
def withPrimaryKey (entity : Entity) (column : String) : Entity :=
  { entity with
    attributes := (entity.attributes.erase entity.primaryKey).insert column column
    primaryKey := column }

def withRelation (entity : Entity) (relation : Relation) : Entity :=
  { entity with relations := entity.relations.insert relation.name relation }

end Entity

structure Schema where
  entities : Dictionary Entity
  deriving Repr

namespace Schema

def empty : Schema := ⟨.empty⟩

def register (schema : Schema) (entity : Entity) : Schema :=
  ⟨schema.entities.insert entity.name entity⟩

def ofEntities (entities : List Entity) : Schema :=
  entities.foldl register empty

def entity (schema : Schema) (name : String) : Except Fault Entity :=
  match schema.entities.find? name with
  | some entity => .ok entity
  | none => .error (.unknownEntity name)

def relation (schema : Schema) (entityName name : String) : Except Fault Relation := do
  let entity ← schema.entity entityName
  match entity.relations.find? name with
  | some relation => .ok relation
  | none => .error (.unresolved entityName name)

def column (schema : Schema) (entityName attributeName : String) : Except Fault String := do
  let entity ← schema.entity entityName
  match entity.attributes.find? attributeName with
  | some column => .ok column
  | none => .error (.unresolved entityName attributeName)

end Schema

/-- What joins and conditions ask of a schema. Whatever answers these questions can stand in for
one. -/
structure RelationGraph where
  entity : String → Except Fault Entity
  relation : String → String → Except Fault Relation
  column : String → String → Except Fault String

abbrev Schema.graph (schema : Schema) : RelationGraph :=
  ⟨schema.entity, schema.relation, schema.column⟩

instance : Coe Schema RelationGraph := ⟨Schema.graph⟩

end FilterQuery
