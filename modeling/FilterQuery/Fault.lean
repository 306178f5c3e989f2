import FilterQuery.RelationKind

/-!
What can go wrong between a request and its answer. A fault is a cause; its wording is given with
the report.
-/

namespace FilterQuery

inductive FaultCode where
  | unknownOperator
  | invalidOperator
  | emptyComposite
  | invalidValue
  | fieldResolution
  | lengthMismatch
  | databaseError
  | deserializationError
  | invalidConfiguration
  | internal
  deriving DecidableEq, Repr

namespace FaultCode

/-- The thousands tell the stage: filters, schema, ordering, execution, data, configuration, the
compiler itself. -/
def number : FaultCode → Nat
  | .unknownOperator => 1001
  | .invalidOperator => 1002
  | .emptyComposite => 1003
  | .invalidValue => 1004
  | .fieldResolution => 2001
  | .lengthMismatch => 3001
  | .databaseError => 5001
  | .deserializationError => 6001
  | .invalidConfiguration => 7001
  | .internal => 9001

def description : FaultCode → String
  | .unknownOperator => "Unknown filter operator"
  | .invalidOperator => "Invalid composite operator"
  | .emptyComposite => "Empty composite filter"
  | .invalidValue => "Invalid filter value"
  | .fieldResolution => "Unresolvable field"
  | .lengthMismatch => "Ordering length mismatch"
  | .databaseError => "Database error"
  | .deserializationError => "Deserialization error"
  | .invalidConfiguration => "Invalid configuration"
  | .internal => "Internal error"

/-- The fault lies in the filters alone, whatever the schema. -/
def isFilterFault : FaultCode → Bool
  | .unknownOperator | .invalidOperator | .emptyComposite | .invalidValue => true
  | _ => false

end FaultCode

inductive ConfigurationProblem where
  | missingForeignKey (entity relation : String) (kind : RelationKind) (side : KeySide)
  | unpairedKeys (entity relation : String) (fields references : Nat)
  | blankDefaultGroup
  | unreadableSettings
  | other (message : String)
  deriving DecidableEq, Repr

inductive InternalProblem where
  | unplannedPath (segments : List String) (group : String)
  | other (message : String)
  deriving DecidableEq, Repr

inductive Fault where
  | unknownOperator (field operator : String)
  | invalidOperator (operator : String)
  | emptyComposite (operator : String)
  | invalidValue (field operator value expected : String)
  | malformedPath (path : String)
  | unknownEntity (entity : String)
  | unresolved (entity member : String)
  | lengthMismatch (keys flags : Nat)
  | unreadableFilters (detail : String)
  | configuration (problem : ConfigurationProblem)
  | database (message : String)
  | internal (problem : InternalProblem)
  deriving DecidableEq, Repr

def Fault.code : Fault → FaultCode
  | .unknownOperator _ _ => .unknownOperator
  | .invalidOperator _ => .invalidOperator
  | .emptyComposite _ => .emptyComposite
  | .invalidValue _ _ _ _ => .invalidValue
  | .malformedPath _ | .unknownEntity _ | .unresolved _ _ => .fieldResolution
  | .lengthMismatch _ _ => .lengthMismatch
  | .unreadableFilters _ => .deserializationError
  | .configuration _ => .invalidConfiguration
  | .database _ => .databaseError
  | .internal _ => .internal

section Outcomes

variable {First Second : Type} {outcome : Except Fault First}

theorem bind_ok_iff {next : First → Except Fault Second} {result : Second} :
    (outcome >>= next) = .ok result ↔ ∃ first, outcome = .ok first ∧ next first = .ok result := by
  cases outcome <;> simp [bind, Except.bind]

theorem map_ok_iff {change : First → Second} {result : Second} :
    outcome.map change = .ok result ↔ ∃ first, outcome = .ok first ∧ change first = result := by
  cases outcome <;> simp [Except.map]

end Outcomes

end FilterQuery
