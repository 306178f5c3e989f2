import FilterQuery.Proofs.Assignment

/-!
What a filter tree asks of a root row. There are no joins, subqueries and table names here: every
path of the tree gets related rows, one in each scope, and a condition is asked of the row at the
end of its path. Main statements: whether a tree holds depends on its conditions alone, and what is
asked of some conditions depends on the rows along their own paths alone.
-/

namespace FilterQuery

section Column

variable {Content : Type}

namespace Store

/-- Equality as conditions ask for it: a null asks for the absence of a content, a list for one of
its items. -/
def same (store : Store Content) (held : Option Content) : Value → Truth
  | .null => .of held.isNone
  | .list values => .any (values.map (store.compared .equal held))
  | value => store.compared .equal held value

def differs (store : Store Content) (held : Option Content) : Value → Truth
  | .null => .of held.isSome
  | value => store.compared .notEqual held value

/-- What an operator asks of a column. Nothing is known of a value that the operator does not
take. -/
def asks (store : Store Content) (operator : Operator) (held : Option Content) (value : Value) :
    Truth :=
  match operator with
  | .equals | .contains => store.same held value
  | .notEquals => store.differs held value
  | .less => store.compared .less held value
  | .lessOrEqual => store.compared .lessOrEqual held value
  | .greater => store.compared .greater held value
  | .greaterOrEqual => store.compared .greaterOrEqual held value
  | .isIn =>
      match value with
      | .list values => .any (values.map (store.compared .equal held))
      | _ => .unknown
  | .like =>
      match value with
      | .text pattern => store.liked held pattern
      | _ => .unknown

end Store

end Column

/-- What a condition is asked of, seen from the row at the end of its path. -/
inductive Aim where
  | own (column : String)
  | member (hop : Hop) (column : String)

namespace Leaf

def aim (graph : RelationGraph) (names : PropertyMap) (entityName : String) (leaf : Leaf) :
    Except Fault Aim :=
  if leaf.operator = .contains then do
    let (relation, named) := Planned.collection leaf.path
    let hop ← graph.hop entityName (names.resolve relation)
    match named with
    | some name => (graph.column hop.related.name (names.resolve name)).map (.member hop)
    | none => (graph.entity hop.related.name).map fun entity => .member hop entity.primaryKey
  else (graph.column entityName (names.resolve leaf.path.attributeName)).map .own

variable {Content : Type} [DecidableEq Content]

def HoldsOf (store : Store Content) (database : Database Content) (leaf : Leaf)
    (row : Row Content) : Aim → Prop
  | .own column => store.asks leaf.operator (row.read column) leaf.value = .yes
  | .member hop column =>
      ∃ link related, hop.Leads database row link related ∧
        store.same (related.read column) leaf.value = .yes

end Leaf

namespace Node

mutual

def Holds (asked : Leaf → Prop) : Node → Prop
  | .leaf condition => asked condition
  | .composite .and first rest => first.Holds asked ∧ AllHold asked rest
  | .composite .or first rest => first.Holds asked ∨ SomeHolds asked rest

def AllHold (asked : Leaf → Prop) : List Node → Prop
  | [] => True
  | node :: rest => node.Holds asked ∧ AllHold asked rest

def SomeHolds (asked : Leaf → Prop) : List Node → Prop
  | [] => False
  | node :: rest => node.Holds asked ∨ SomeHolds asked rest

end

theorem allHold_iff (asked : Leaf → Prop) (nodes : List Node) :
    AllHold asked nodes ↔ ∀ node ∈ nodes, node.Holds asked := by
  induction nodes with
  | nil => simp [AllHold]
  | cons node rest ih => simp [AllHold, ih]

theorem allHold_append (asked : Leaf → Prop) (first second : List Node) :
    AllHold asked (first ++ second) ↔ AllHold asked first ∧ AllHold asked second := by
  simp only [allHold_iff, List.forall_mem_append]

theorem someHolds_iff (asked : Leaf → Prop) (nodes : List Node) :
    SomeHolds asked nodes ↔ ∃ node ∈ nodes, node.Holds asked := by
  induction nodes with
  | nil => simp [SomeHolds]
  | cons node rest ih => simp [SomeHolds, ih]

theorem mem_leavesOfAll (nodes : List Node) (leaf : Leaf) :
    leaf ∈ leavesOfAll nodes ↔ ∃ node ∈ nodes, leaf ∈ node.leaves := by
  induction nodes with
  | nil => simp [leavesOfAll]
  | cons node rest ih => simp [leavesOfAll, ih]

theorem leavesOfAll_append (first second : List Node) :
    leavesOfAll (first ++ second) = leavesOfAll first ++ leavesOfAll second := by
  induction first with
  | nil => rfl
  | cons node rest ih => simp [leavesOfAll, ih]

mutual

theorem holds_congr {first second : Leaf → Prop} : (node : Node) →
    (∀ leaf ∈ node.leaves, (first leaf ↔ second leaf)) → (node.Holds first ↔ node.Holds second)
  | .leaf condition, same => same condition (List.mem_singleton_self _)
  | .composite .and child rest, same =>
      and_congr (holds_congr child fun leaf held => same leaf (List.mem_append_left _ held))
        (allHold_congr rest fun leaf held => same leaf (List.mem_append_right _ held))
  | .composite .or child rest, same =>
      or_congr (holds_congr child fun leaf held => same leaf (List.mem_append_left _ held))
        (someHolds_congr rest fun leaf held => same leaf (List.mem_append_right _ held))

theorem allHold_congr {first second : Leaf → Prop} : (nodes : List Node) →
    (∀ leaf ∈ leavesOfAll nodes, (first leaf ↔ second leaf)) →
      (AllHold first nodes ↔ AllHold second nodes)
  | [], _ => Iff.rfl
  | node :: rest, same =>
      and_congr (holds_congr node fun leaf held => same leaf (List.mem_append_left _ held))
        (allHold_congr rest fun leaf held => same leaf (List.mem_append_right _ held))

theorem someHolds_congr {first second : Leaf → Prop} : (nodes : List Node) →
    (∀ leaf ∈ leavesOfAll nodes, (first leaf ↔ second leaf)) →
      (SomeHolds first nodes ↔ SomeHolds second nodes)
  | [], _ => Iff.rfl
  | node :: rest, same =>
      or_congr (holds_congr node fun leaf held => same leaf (List.mem_append_left _ held))
        (someHolds_congr rest fun leaf held => same leaf (List.mem_append_right _ held))

end

end Node

structure Reading (Content : Type) where
  graph : RelationGraph
  names : PropertyMap
  scope : JoinScope
  root : Entity
  store : Store Content
  database : Database Content

namespace Reading

variable {Content : Type} [DecidableEq Content]

def Asks (reading : Reading Content) (assignment : Assignment Content) (row : Row Content)
    (leaf : Leaf) : Prop :=
  ∃ entity aim, reading.graph.lead reading.root (leaf.trail reading.names) = .ok entity ∧
    leaf.aim reading.graph reading.names entity.name = .ok aim ∧
    leaf.HoldsOf reading.store reading.database
      (assignment.rowAt row (reading.scope.key leaf.group) (leaf.trail reading.names)) aim

/-- Every path of the conditions has rows that are linked to the rows of the path before it. -/
def Fits (reading : Reading Content) (leaves : List Leaf) (assignment : Assignment Content)
    (row : Row Content) : Prop :=
  ∀ within path relation,
    JoinPlan.Occurs reading.names reading.scope leaves within path relation →
      assignment.Links reading.graph reading.database reading.root row within path relation

/-- A row of the root table is selected when linked rows can be found for which all the trees
hold. -/
def Selects (reading : Reading Content) (nodes : List Node) (row : Row Content) : Prop :=
  row ∈ reading.database reading.root.table ∧
    ∃ assignment, reading.Fits (Node.leavesOfAll nodes) assignment row ∧
      Node.AllHold (reading.Asks assignment row) nodes

def SameOn (reading : Reading Content) (leaves : List Leaf) (first second : Assignment Content) :
    Prop :=
  ∀ within path relation, JoinPlan.Occurs reading.names reading.scope leaves within path relation →
    first.related ⟨within, path ++ [relation]⟩ = second.related ⟨within, path ++ [relation]⟩ ∧
      first.link ⟨within, path ++ [relation]⟩ = second.link ⟨within, path ++ [relation]⟩

variable {reading : Reading Content} {leaves : List Leaf} {row : Row Content}
  {first second : Assignment Content}

omit [DecidableEq Content] in
theorem SameOn.rowAt (same : reading.SameOn leaves first second) {leaf : Leaf}
    (held : leaf ∈ leaves) {path : List String} (along : path <+: leaf.trail reading.names) :
    first.rowAt row (reading.scope.key leaf.group) path =
      second.rowAt row (reading.scope.key leaf.group) path := by
  rcases List.eq_nil_or_concat path with rfl | ⟨shorter, relation, rfl⟩
  · rfl
  · rw [List.concat_eq_append] at along ⊢
    rw [Assignment.rowAt_concat, Assignment.rowAt_concat]
    exact (same _ shorter relation ⟨leaf, held, rfl, along⟩).1

theorem SameOn.fits (same : reading.SameOn leaves first second)
    (fits : reading.Fits leaves first row) : reading.Fits leaves second row := by
  intro within path relation occurs
  obtain ⟨sameRelated, sameLink⟩ := same within path relation occurs
  obtain ⟨leaf, held, rfl, along⟩ := id occurs
  have shorter : path <+: leaf.trail reading.names :=
    (List.prefix_append path [relation]).trans along
  exact (fits _ path relation occurs).congr (same.rowAt held shorter) sameLink sameRelated

theorem SameOn.asks (same : reading.SameOn leaves first second) {leaf : Leaf}
    (held : leaf ∈ leaves) : reading.Asks first row leaf ↔ reading.Asks second row leaf := by
  rw [Asks, Asks, same.rowAt held (List.prefix_refl _)]

theorem fits_of_subset {more : List Leaf} (subset : leaves ⊆ more)
    (fits : reading.Fits more first row) : reading.Fits leaves first row :=
  fun within path relation ⟨leaf, held, occurs⟩ =>
    fits within path relation ⟨leaf, subset held, occurs⟩

end Reading

end FilterQuery
