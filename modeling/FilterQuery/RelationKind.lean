/-!
How many rows a relation leads from and to.
-/

namespace FilterQuery

inductive RelationKind where
  | oneToOne
  | oneToMany
  | manyToOne
  | manyToMany
  deriving DecidableEq, Repr

namespace RelationKind

def isMany : RelationKind → Bool
  | .oneToMany | .manyToMany => true
  | .oneToOne | .manyToOne => false

def name : RelationKind → String
  | .oneToOne => "OneToOne"
  | .oneToMany => "OneToMany"
  | .manyToOne => "ManyToOne"
  | .manyToMany => "ManyToMany"

end RelationKind

/-- The two lists of key columns of a relation: on the owning entity, and on the related one. -/
inductive KeySide where
  | fields
  | references
  deriving DecidableEq, Repr

def KeySide.name : KeySide → String
  | .fields => "fields"
  | .references => "references"

end FilterQuery
