import FilterQuery.FieldPath
import FilterQuery.Operator
import FilterQuery.RawFilter

/-!
The typed filter tree. Reading it from raw entries stops at the first entry at fault, in the order
of the request; a composite is checked before its children, and the checks of a condition are
operator, integer range, path and value, in this order.
-/

namespace FilterQuery

/-- One condition. The group says which conditions must hold of the same related rows. -/
structure Leaf where
  path : FieldPath
  operator : Operator
  value : Value
  group : String
  deriving Repr

def defaultGroup : String := "__default__"

namespace Leaf

def refusal (leaf : Leaf) : Fault :=
  .invalidValue leaf.path.text leaf.operator.symbol leaf.value.shown leaf.operator.expectation

def of (field : String) (operator : Operator) (value : Value) (group : String) :
    Except Fault Leaf := do
  let path ← FieldPath.parse field
  let leaf : Leaf := ⟨path, operator, value.coerce, group⟩
  if operator.accepts leaf.value then .ok leaf else .error leaf.refusal

/-- The relations whose rows the condition speaks of one at a time. The collection of `contains` is
not among them: it is searched as a whole. -/
def joinSegments (leaf : Leaf) : List String :=
  match leaf.operator with
  | .contains => leaf.path.relations.dropLast
  | _ => leaf.path.relations

end Leaf

-- The first child stands apart because a composite without children cannot be made.
inductive Node where
  | leaf (leaf : Leaf)
  | composite (combinator : Combinator) (first : Node) (rest : List Node)
  deriving Repr

namespace Combinator

def parse (symbol : String) : Except Fault Combinator :=
  match ofSymbol? symbol with
  | some combinator => .ok combinator
  | none => .error (.invalidOperator symbol)

end Combinator

namespace Node

def compose (combinator : Combinator) : List Node → Except Fault Node
  | [] => .error (.emptyComposite combinator.symbol)
  | first :: rest => .ok (.composite combinator first rest)

mutual

def leaves : Node → List Leaf
  | .leaf condition => [condition]
  | .composite _ first rest => first.leaves ++ leavesOfAll rest

def leavesOfAll : List Node → List Leaf
  | [] => []
  | node :: rest => node.leaves ++ leavesOfAll rest

end

def leafOfRaw (field op : String) (value : Json) (group : String) : Except Fault Leaf :=
  match Operator.ofSymbol? op with
  | none => .error (.unknownOperator field op)
  | some operator =>
      match Value.ofJson value with
      | .error number =>
          .error (.invalidValue field op (String.ofList (Text.integer number))
            "integers within the signed 64-bit range")
      | .ok value => Leaf.of field operator value group

mutual

def ofRaw (group : String) : RawFilter → Except Fault Node
  | .leaf field op value own => (leafOfRaw field op value (own.getD group)).map .leaf
  | .composite op [] => .error (.emptyComposite op)
  | .composite op (first :: rest) => do
      let combinator ← Combinator.parse op
      let first ← ofRaw group first
      let rest ← ofRawAll group rest
      .ok (.composite combinator first rest)

/-- The typed trees of raw entries; a condition without a group of its own gets the given one. -/
def ofRawAll (group : String) : List RawFilter → Except Fault (List Node)
  | [] => .ok []
  | entry :: rest => do
      let first ← ofRaw group entry
      let others ← ofRawAll group rest
      .ok (first :: others)

end

def readList (group : String) (text : String) : Except Fault (List Node) :=
  match RawFilter.readList? text with
  | some entries => ofRawAll group entries
  | none => .error (.unreadableFilters "")

end Node

end FilterQuery
