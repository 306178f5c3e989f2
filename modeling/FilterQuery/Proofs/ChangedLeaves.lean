import FilterQuery.Proofs.Assembled

/-!
Trees whose conditions are changed one by one. What is compiled of a tree is compiled of its
conditions in their order. Main statement: when the changed conditions are planned and compiled as
the given ones are, whatever names, scope and default group they are read with, the two requests
have the same outcome.
-/

namespace FilterQuery

namespace Node

mutual

def changed (change : Leaf → Leaf) : Node → Node
  | .leaf condition => .leaf (change condition)
  | .composite combinator first rest =>
      .composite combinator (first.changed change) (changedAll change rest)

def changedAll (change : Leaf → Leaf) : List Node → List Node
  | [] => []
  | node :: rest => node.changed change :: changedAll change rest

end

mutual

theorem leaves_changed (change : Leaf → Leaf) : (node : Node) →
    (node.changed change).leaves = node.leaves.map change
  | .leaf _ => rfl
  | .composite _ first rest => by
      rw [changed, leaves, leaves, List.map_append, leaves_changed change first,
        leavesOfAll_changedAll change rest]

theorem leavesOfAll_changedAll (change : Leaf → Leaf) : (nodes : List Node) →
    leavesOfAll (changedAll change nodes) = (leavesOfAll nodes).map change
  | [] => rfl
  | node :: rest => by
      rw [changedAll, leavesOfAll, leavesOfAll, List.map_append, leaves_changed change node,
        leavesOfAll_changedAll change rest]

end

end Node

namespace Planned

variable {planned other : Planned} {change : Leaf → Leaf}

mutual

theorem build_changed : (node : Node) →
    (∀ leaf ∈ node.leaves, ∀ subqueries,
      other.buildLeaf (change leaf) subqueries = planned.buildLeaf leaf subqueries) →
    ∀ subqueries, other.build (node.changed change) subqueries = planned.build node subqueries
  | .leaf leaf, same, subqueries => same leaf (List.mem_singleton_self _) subqueries
  | .composite combinator first rest, same, subqueries => by
      have head := build_changed first fun leaf held => same leaf (List.mem_append_left _ held)
      have tail := buildGroups_changed rest fun leaf held =>
        same leaf (List.mem_append_right _ held)
      simp only [Node.changed, build, head, tail]

theorem buildGroups_changed : (nodes : List Node) →
    (∀ leaf ∈ Node.leavesOfAll nodes, ∀ subqueries,
      other.buildLeaf (change leaf) subqueries = planned.buildLeaf leaf subqueries) →
    ∀ subqueries,
      other.buildGroups (Node.changedAll change nodes) subqueries =
        planned.buildGroups nodes subqueries
  | [], _, _ => rfl
  | node :: rest, same, subqueries => by
      have head := build_changed node fun leaf held => same leaf (List.mem_append_left _ held)
      have tail := buildGroups_changed rest fun leaf held =>
        same leaf (List.mem_append_right _ held)
      simp only [Node.changedAll, buildGroups, head, tail]

end

end Planned

namespace Assembler

theorem tree_changedAll (change : Leaf → Leaf) (nodes : List Node) :
    tree (Node.changedAll change nodes) = (tree nodes).map (Node.changed change) := by
  cases nodes with
  | nil => rfl
  | cons first rest => cases rest <;> rfl

/-- The two settings plan and compile conditions and changed conditions alike. The plans may keep
their paths under other keys. -/
structure Mirrors (schema : Schema) (settings other : Settings) (root : Entity)
    (names otherNames : PropertyMap) (change : Leaf → Leaf) (leaves : List Leaf)
    (move : JoinPlan → JoinPlan) : Prop where
  root_kept : ∀ joined, (move joined).root = joined.root
  joins_kept : ∀ joined, (move joined).joins = joined.joins
  start : move (.new root settings.joinScope) = .new root other.joinScope
  plans : JoinPlan.planLeaves schema otherNames (.new root other.joinScope) (leaves.map change) =
    (JoinPlan.planLeaves schema names (.new root settings.joinScope) leaves).map move
  compiles : ∀ {joined},
    JoinPlan.planLeaves schema names (.new root settings.joinScope) leaves = .ok joined →
    ∀ leaf ∈ leaves, ∀ subqueries,
      (Planned.mk schema otherNames (move joined)).buildLeaf (change leaf) subqueries =
        (Planned.mk schema names joined).buildLeaf leaf subqueries

variable {schema : Schema} {settings other : Settings} {root : Entity}
  {names otherNames : PropertyMap} {change : Leaf → Leaf} {nodes : List Node}
  {move : JoinPlan → JoinPlan}

theorem joinsAndCondition_changed
    (mirrors :
      Mirrors schema settings other root names otherNames change (Node.leavesOfAll nodes) move) :
    (Assembler.mk schema other).joinsAndCondition root otherNames
        (tree (Node.changedAll change nodes)) =
      ((Assembler.mk schema settings).joinsAndCondition root names (tree nodes)).map
        fun (joined, condition) => (move joined, condition) := by
  rw [tree_changedAll]
  cases tied : tree nodes with
  | none => exact congrArg (fun joined => Except.ok (joined, none)) mirrors.start.symm
  | some node =>
      have plans := mirrors.plans
      have compiles := @mirrors.compiles
      rw [← leaves_tree tied] at plans compiles
      simp only [Option.map_some, joinsAndCondition, Node.leaves_changed, plans]
      cases planned :
        JoinPlan.planLeaves schema names (.new root settings.joinScope) node.leaves with
      | error fault => rfl
      | ok joined =>
          simp only [Except.map, bind, Except.bind,
            Planned.build_changed node (compiles planned) 0]
          cases ((Planned.mk schema names joined).build node 0).1 <;> rfl

theorem assembleNodes_changed {given otherGiven : Option PropertyMap} {sort otherSort : SortRequest}
    {directions : DirectionRequest} (rootName : String)
    (sameDialect : other.dialect = settings.dialect)
    (mirrors : ∀ root, Mirrors schema settings other root
      ((Assembler.mk schema settings).effectiveNames given)
      ((Assembler.mk schema other).effectiveNames otherGiven) change (Node.leavesOfAll nodes) move)
    (ordered : ∀ root, (Assembler.mk schema other).orderClauses root
        ((Assembler.mk schema other).effectiveNames otherGiven) otherSort directions =
      (Assembler.mk schema settings).orderClauses root
        ((Assembler.mk schema settings).effectiveNames given) sort directions) :
    (Assembler.mk schema other).assembleNodes rootName (Node.changedAll change nodes) otherGiven
        otherSort directions =
      (Assembler.mk schema settings).assembleNodes rootName nodes given sort directions := by
  simp only [assembleNodes]
  cases schema.entity rootName with
  | error fault => rfl
  | ok root =>
      simp only [bind, Except.bind, joinsAndCondition_changed (mirrors root), ordered root]
      cases (Assembler.mk schema settings).joinsAndCondition root
        ((Assembler.mk schema settings).effectiveNames given) (tree nodes) with
      | error fault => rfl
      | ok built =>
          simp only [Except.map, JoinPlan.fansOut, (mirrors root).root_kept,
            (mirrors root).joins_kept, sameDialect]

end Assembler

end FilterQuery
