import FilterQuery.Proofs.Compilation
import FilterQuery.Proofs.ReadFilters

/-!
What an assembled query plan is made of. Main statements: a request can be assembled exactly when
its filters and its root can be read, every condition compiles on its own and the order resolves;
and an assembled plan selects the rows that the filter tree selects.
-/

namespace FilterQuery

def Leaf.Compiles (graph : RelationGraph) (names : PropertyMap) (root : Entity)
    (leaf : Leaf) : Prop :=
  ∃ entity, graph.lead root (leaf.trail names) = .ok entity ∧
    ∃ aim, leaf.aim graph names entity.name = .ok aim ∧
      ∃ binding number condition, aim.condition leaf binding number = .ok condition

def Request.withFilters (request : Request) (filters : List RawFilter) : Request :=
  { request with filters := filters }

namespace JoinPlan

variable {graph : RelationGraph} {root : Entity} {scope : JoinScope} {names : PropertyMap}
  {leaves : List Leaf} {joined : JoinPlan}

theorem Covers.target_of_reached
    (covers : Covers graph root scope names leaves (.new root scope) joined) {leaf : Leaf}
    {target : Target}
    (reached : joined.reached? (scope.key leaf.group) (leaf.trail names) = some target) :
    joined.target names leaf.joinSegments leaf.group = .ok target := by
  rw [Leaf.trail] at reached
  rw [target_eq, covers.grown.scope_eq, reached]

theorem Covers.target_ok (covers : Covers graph root scope names leaves (.new root scope) joined)
    {leaf : Leaf} (held : leaf ∈ leaves) :
    ∃ target, joined.target names leaf.joinSegments leaf.group = .ok target :=
  (covers.reaches leaf held).imp fun _ reached => covers.target_of_reached reached

theorem Covers.buildLeaf_eq (covers : Covers graph root scope names leaves (.new root scope) joined)
    {leaf : Leaf} (held : leaf ∈ leaves) :
    ∃ target entity, joined.reached? (scope.key leaf.group) (leaf.trail names) = some target ∧
      graph.lead root (leaf.trail names) = .ok entity ∧
        ∀ subqueries, ((Planned.mk graph names joined).buildLeaf leaf subqueries).1 =
          (leaf.aim graph names entity.name).bind
            (·.condition leaf target.binding (subqueries + 1)) := by
  obtain ⟨target, reached⟩ := covers.reaches leaf held
  obtain ⟨entity, led, named⟩ := covers.grown.reached_lead reached
  refine ⟨target, entity, reached, led, fun subqueries => ?_⟩
  rw [Planned.buildLeaf_eq _ leaf subqueries (covers.target_of_reached reached), named]

theorem Covers.buildLeaf_ok_iff
    (covers : Covers graph root scope names leaves (.new root scope) joined) {leaf : Leaf}
    (held : leaf ∈ leaves) (subqueries : Nat) :
    (∃ condition, ((Planned.mk graph names joined).buildLeaf leaf subqueries).1 = .ok condition) ↔
      leaf.Compiles graph names root := by
  obtain ⟨target, entity, _, led, same⟩ := covers.buildLeaf_eq held
  rw [same]
  constructor
  · rintro ⟨condition, built⟩
    obtain ⟨aim, aimed, compiled⟩ := bind_ok_iff.mp built
    exact ⟨entity, led, aim, aimed, _, _, condition, compiled⟩
  · rintro ⟨other, otherLed, aim, aimed, binding, number, condition, compiled⟩
    cases led.symm.trans otherLed
    rw [aimed]
    exact (aim.condition_ok_iff leaf binding target.binding number (subqueries + 1)).mp
      ⟨condition, compiled⟩

theorem Covers.build_ok_iff {node : Node}
    (covers : Covers graph root scope names node.leaves (.new root scope) joined) :
    (∃ condition, ((Planned.mk graph names joined).build node 0).1 = .ok condition) ↔
      ∀ leaf ∈ node.leaves, leaf.Compiles graph names root :=
  Planned.build_ok_iff node (fun _ held subqueries => covers.buildLeaf_ok_iff held subqueries) 0

end JoinPlan

namespace Assembler

def reading {Content : Type} (assembler : Assembler) (request : Request) (root : Entity)
    (store : Store Content) (database : Database Content) : Reading Content where
  graph := assembler.schema
  names := assembler.effectiveNames request.names
  scope := assembler.settings.joinScope
  root := root
  store := store
  database := database

theorem eq_nil_of_tree {nodes : List Node} (noneMade : tree nodes = none) : nodes = [] := by
  cases nodes with
  | nil => rfl
  | cons first rest => cases rest <;> cases noneMade

theorem leaves_tree {nodes : List Node} {node : Node} (made : tree nodes = some node) :
    node.leaves = Node.leavesOfAll nodes := by
  cases nodes with
  | nil => cases made
  | cons first rest =>
      cases rest with
      | nil =>
          cases made
          simp [Node.leavesOfAll]
      | cons second others =>
          cases made
          rfl

theorem holds_tree {nodes : List Node} {node : Node} (made : tree nodes = some node)
    (asked : Leaf → Prop) : node.Holds asked ↔ Node.AllHold asked nodes := by
  cases nodes with
  | nil => cases made
  | cons first rest =>
      cases rest with
      | nil =>
          cases made
          simp [Node.AllHold]
      | cons second others =>
          cases made
          rfl

structure Assembled (assembler : Assembler) (request : Request) (nodes : List Node) (root : Entity)
    (joined : JoinPlan) (plan : QueryPlan) : Prop where
  covers : JoinPlan.Covers assembler.schema root assembler.settings.joinScope
    (assembler.effectiveNames request.names) (Node.leavesOfAll nodes)
    (.new root assembler.settings.joinScope) joined
  table : plan.table = root.table
  binding : plan.binding = root.table
  joins : plan.joins = joined.joins
  distinct : plan.distinct = joined.fansOut
  condition : match tree nodes with
    | none => plan.condition = none
    | some node => ∃ condition, plan.condition = some condition ∧
        ((Planned.mk assembler.schema (assembler.effectiveNames request.names) joined).build
          node 0).1 = .ok condition

variable {assembler : Assembler} {rootName : String} {request : Request}

theorem joinsAndCondition_ok {root : Entity} {names : PropertyMap} {nodes : List Node}
    {joined : JoinPlan} {condition : Option Condition}
    (built : assembler.joinsAndCondition root names (tree nodes) = .ok (joined, condition)) :
    JoinPlan.planLeaves assembler.schema names (.new root assembler.settings.joinScope)
        (Node.leavesOfAll nodes) = .ok joined ∧
      match tree nodes with
      | none => condition = none
      | some node => ∃ made, condition = some made ∧
          ((Planned.mk assembler.schema names joined).build node 0).1 = .ok made := by
  cases made : tree nodes with
  | none =>
      rw [made] at built
      cases built
      rw [eq_nil_of_tree made]
      exact ⟨rfl, rfl⟩
  | some node =>
      rw [made] at built
      simp only [joinsAndCondition, leaves_tree made, bind_ok_iff] at built
      obtain ⟨plan, planned, compiled, compiles, same⟩ := built
      cases same
      exact ⟨planned, compiled, rfl, compiles⟩

theorem joinsAndCondition_ok_iff (root : Entity) (names : PropertyMap) (nodes : List Node) :
    (∃ built, assembler.joinsAndCondition root names (tree nodes) = .ok built) ↔
      ∀ leaf ∈ Node.leavesOfAll nodes, leaf.Compiles assembler.schema names root := by
  cases tied : tree nodes with
  | none => simp [joinsAndCondition, eq_nil_of_tree tied, Node.leavesOfAll]
  | some node =>
      simp only [joinsAndCondition, ← leaves_tree tied, bind_ok_iff]
      have atStart : JoinPlan.Grown assembler.schema root assembler.settings.joinScope _ := .start
      constructor
      · rintro ⟨_, joined, planned, condition, builds, _⟩
        have covers := JoinPlan.planLeaves_covers atStart planned
        exact covers.build_ok_iff.mp ⟨condition, builds⟩
      · intro compiles
        obtain ⟨joined, planned⟩ := (JoinPlan.planLeaves_ok_iff atStart).mpr fun leaf held =>
          (compiles leaf held).imp fun _ compiled => compiled.1
        have covers := JoinPlan.planLeaves_covers atStart planned
        obtain ⟨condition, builds⟩ := covers.build_ok_iff.mpr compiles
        exact ⟨(joined, some condition), joined, planned, condition, builds, rfl⟩

theorem exists_of_assemble {plan : QueryPlan}
    (assembled : assembler.assemble rootName request = .ok plan) :
    ∃ nodes root joined condition orderBy,
      Node.ofRawAll assembler.settings.defaultGroup request.filters = .ok nodes ∧
        assembler.schema.entity rootName = .ok root ∧
        assembler.joinsAndCondition root (assembler.effectiveNames request.names) (tree nodes) =
          .ok (joined, condition) ∧
        assembler.orderClauses root (assembler.effectiveNames request.names) request.sort
          request.directions = .ok orderBy ∧
        plan = {
          entity := root.name
          table := root.table
          binding := joined.root.binding
          joins := joined.joins
          condition := condition
          orderBy := orderBy
          distinct := joined.fansOut
          dialect := assembler.settings.dialect } := by
  simp only [assemble, assembleNodes, bind_ok_iff] at assembled
  obtain ⟨nodes, read, root, rooted, ⟨joined, condition⟩, compiled, orderBy, ordered, made⟩ :=
    assembled
  cases made
  exact ⟨nodes, root, joined, condition, orderBy, read, rooted, compiled, ordered, rfl⟩

theorem assembled_of_assemble {plan : QueryPlan}
    (assembled : assembler.assemble rootName request = .ok plan) :
    ∃ nodes root joined,
      Node.ofRawAll assembler.settings.defaultGroup request.filters = .ok nodes ∧
        assembler.schema.entity rootName = .ok root ∧
          assembler.Assembled request nodes root joined plan := by
  obtain ⟨nodes, root, joined, condition, _, read, rooted, compiled, _, rfl⟩ :=
    exists_of_assemble assembled
  obtain ⟨planned, made⟩ := joinsAndCondition_ok compiled
  have covers := JoinPlan.planLeaves_covers .start planned
  exact ⟨nodes, root, joined, read, rooted, covers, rfl,
    congrArg Target.binding covers.grown.root_eq, rfl, rfl, made⟩

section Selection

variable {Content : Type} [DecidableEq Content] {nodes : List Node} {root : Entity}
  {joined : JoinPlan} {plan : QueryPlan} {store : Store Content} {database : Database Content}
  {row : Row Content} {bindings : Bindings Content} {assignment : Assignment Content}

theorem Assembled.linked_iff (made : assembler.Assembled request nodes root joined plan) :
    joined.Linked assembler.schema database root assignment row ↔
      (assembler.reading request root store database).Fits
        (Node.leavesOfAll nodes) assignment row :=
  forall₃_congr fun within path relation =>
    imp_congr_left (made.covers.mem_keys_iff within path relation)

theorem Assembled.truth_buildLeaf (made : assembler.Assembled request nodes root joined plan)
    (plain : ¬ IsGenerated root.table) (shows : joined.Shows bindings assignment row) {leaf : Leaf}
    (held : leaf ∈ Node.leavesOfAll nodes) (subqueries : Nat) (condition : Condition)
    (built : ((Planned.mk assembler.schema
      (assembler.effectiveNames request.names) joined).buildLeaf leaf subqueries).1 =
        .ok condition) :
    condition.truth store database bindings = .yes ↔
      (assembler.reading request root store database).Asks assignment row leaf := by
  obtain ⟨target, entity, reached, led, same⟩ := made.covers.buildLeaf_eq held
  rw [same] at built
  obtain ⟨aim, aimed, compiled⟩ := bind_ok_iff.mp built
  have apart (isLink : Bool) :
      target.binding ≠ TableName.text ⟨.searched, subqueries + 1, isLink⟩ := by
    rcases made.covers.grown.reached_binding reached with own | ⟨number, _, joinName⟩
    · rw [own]
      exact fun same => plain ⟨_, same.symm⟩
    · rw [joinName]
      exact TableName.text_ne (by simp [TableName.ofJoin])
  rw [Aim.truth_condition store database bindings compiled apart, shows reached]
  constructor
  · exact fun holds => ⟨entity, aim, led, aimed, holds⟩
  · rintro ⟨other, sameAim, otherLed, otherAimed, holds⟩
    cases led.symm.trans otherLed
    cases aimed.symm.trans otherAimed
    exact holds

theorem Assembled.keeps_iff (made : assembler.Assembled request nodes root joined plan)
    (plain : ¬ IsGenerated root.table) (shows : joined.Shows bindings assignment row) :
    plan.keeps store database bindings = true ↔
      Node.AllHold ((assembler.reading request root store database).Asks assignment row) nodes := by
  have condition := made.condition
  cases tied : tree nodes with
  | none =>
      rw [tied] at condition
      simp [QueryPlan.keeps, condition, eq_nil_of_tree tied, Node.AllHold]
  | some node =>
      rw [tied] at condition
      obtain ⟨compiled, same, built⟩ := condition
      simp only [QueryPlan.keeps, same, decide_eq_true_eq]
      rw [← holds_tree tied]
      apply Planned.truth_build node ?_ built
      intro leaf held
      rw [leaves_tree tied] at held
      exact made.truth_buildLeaf plain shows held

theorem Assembled.tableNames_nodup (made : assembler.Assembled request nodes root joined plan)
    (plain : ¬ IsGenerated root.table) : plan.tableNames.Nodup := by
  rw [QueryPlan.tableNames, made.binding, made.joins]
  exact made.covers.grown.allNames_nodup plain

/-- An assembled plan selects what its trees select. -/
theorem Assembled.mem_rows_iff (made : assembler.Assembled request nodes root joined plan)
    (plain : ¬ IsGenerated root.table) (store : Store Content) (database : Database Content)
    (row : Row Content) :
    row ∈ plan.rows store database ↔
      (assembler.reading request root store database).Selects nodes row := by
  have grown := made.covers.grown
  have atRoot : joined.reached? "" [] = some ⟨root.name, root.table⟩ := by
    rw [← grown.root_eq]
    rfl
  rw [QueryPlan.mem_rows, QueryPlan.found, if_pos (made.tableNames_nodup plain), made.table,
    made.binding, made.joins]
  simp only [List.mem_flatMap, List.mem_map, List.mem_filter]
  constructor
  · rintro ⟨base, inTable, found, ⟨member, kept⟩, rfl⟩
    obtain ⟨assignment, shows, linked⟩ := JoinPlan.linked_of_found grown plain member
    have same : found root.table = base := shows atRoot
    rw [same]
    exact ⟨inTable, assignment, made.linked_iff.mp linked, (made.keeps_iff plain shows).mp kept⟩
  · rintro ⟨inTable, assignment, fits, holds⟩
    obtain ⟨found, member, shows⟩ := JoinPlan.found_of_linked grown plain (made.linked_iff.mpr fits)
    exact ⟨row, inTable, found, ⟨member, (made.keeps_iff plain shows).mpr holds⟩, shows atRoot⟩

theorem mem_rows_single {filter : RawFilter} {node : Node}
    (assembled : assembler.assemble rootName (request.withFilters [filter]) = .ok plan)
    (read : Node.ofRaw assembler.settings.defaultGroup filter = .ok node)
    (rooted : assembler.schema.entity rootName = .ok root) (plain : ¬ IsGenerated root.table) :
    row ∈ plan.rows store database ↔
      (assembler.reading request root store database).Selects [node] row := by
  obtain ⟨_, _, _, readOne, sameRooted, made⟩ := assembled_of_assemble assembled
  obtain ⟨_, sameRead, rfl⟩ := (Node.ofRawAll_singleton_ok _ _).mp readOne
  cases read.symm.trans sameRead
  cases rooted.symm.trans sameRooted
  exact made.mem_rows_iff plain store database row

end Selection

theorem assemble_ok_iff :
    (∃ plan, assembler.assemble rootName request = .ok plan) ↔
      ∃ nodes root, Node.ofRawAll assembler.settings.defaultGroup request.filters = .ok nodes ∧
        assembler.schema.entity rootName = .ok root ∧
        (∀ leaf ∈ Node.leavesOfAll nodes,
          leaf.Compiles assembler.schema (assembler.effectiveNames request.names) root) ∧
        ∃ orderBy, assembler.orderClauses root (assembler.effectiveNames request.names) request.sort
          request.directions = .ok orderBy := by
  simp only [assemble, assembleNodes, bind, Except.bind]
  cases Node.ofRawAll assembler.settings.defaultGroup request.filters with
  | error fault => simp
  | ok nodes =>
      cases assembler.schema.entity rootName with
      | error fault => simp
      | ok root =>
          simp only [Except.ok.injEq, exists_and_left, exists_eq_left', ← joinsAndCondition_ok_iff]
          cases assembler.joinsAndCondition root (assembler.effectiveNames request.names)
            (tree nodes) with
          | error fault => simp
          | ok built =>
              cases assembler.orderClauses root (assembler.effectiveNames request.names)
                request.sort request.directions <;> simp

theorem assemble_single_ok_iff {filter : RawFilter} :
    (∃ plan, assembler.assemble rootName (request.withFilters [filter]) = .ok plan) ↔
      ∃ node root, Node.ofRaw assembler.settings.defaultGroup filter = .ok node ∧
        assembler.schema.entity rootName = .ok root ∧
        (∀ leaf ∈ node.leaves,
          leaf.Compiles assembler.schema (assembler.effectiveNames request.names) root) ∧
        ∃ orderBy, assembler.orderClauses root (assembler.effectiveNames request.names) request.sort
          request.directions = .ok orderBy := by
  simp only [assemble_ok_iff, Request.withFilters, Node.ofRawAll_singleton_ok]
  constructor
  · rintro ⟨_, root, ⟨node, read, rfl⟩, rooted, compiles, ordered⟩
    exact ⟨node, root, read, rooted,
      fun leaf held => compiles leaf (List.mem_append_left _ held), ordered⟩
  · rintro ⟨node, root, read, rooted, compiles, ordered⟩
    refine ⟨[node], root, ⟨node, read, rfl⟩, rooted, fun leaf held => ?_, ordered⟩
    rw [Node.leavesOfAll, Node.leavesOfAll, List.append_nil] at held
    exact compiles leaf held

theorem assemble_filters_ok_iff {filters : List RawFilter} (nonempty : filters ≠ []) :
    (∃ plan, assembler.assemble rootName (request.withFilters filters) = .ok plan) ↔
      ∀ filter ∈ filters, ∃ plan,
        assembler.assemble rootName (request.withFilters [filter]) = .ok plan := by
  simp only [assemble_single_ok_iff]
  simp only [assemble_ok_iff, Request.withFilters]
  constructor
  · rintro ⟨nodes, root, read, rooted, compiles, ordered⟩ filter held
    obtain ⟨node, readOne⟩ := (Node.ofRawAll_ok_iff filters).mp ⟨nodes, read⟩ filter held
    have inNodes := (Node.mem_ofRawAll read node).mpr ⟨filter, held, readOne⟩
    refine ⟨node, root, readOne, rooted, fun leaf inNode => ?_, ordered⟩
    exact compiles leaf ((Node.mem_leavesOfAll nodes leaf).mpr ⟨node, inNodes, inNode⟩)
  · intro alone
    obtain ⟨nodes, read⟩ := (Node.ofRawAll_ok_iff filters).mpr fun filter held => by
      obtain ⟨node, _, readOne, _⟩ := alone filter held
      exact ⟨node, readOne⟩
    obtain ⟨first, inFilters⟩ := List.exists_mem_of_ne_nil filters nonempty
    obtain ⟨_, root, _, rooted, _, ordered⟩ := alone first inFilters
    refine ⟨nodes, root, read, rooted, fun leaf held => ?_, ordered⟩
    obtain ⟨node, inNodes, inNode⟩ := (Node.mem_leavesOfAll nodes leaf).mp held
    obtain ⟨filter, inFilters, readOne⟩ := (Node.mem_ofRawAll read node).mp inNodes
    obtain ⟨_, _, sameRead, sameRooted, compiles, _⟩ := alone filter inFilters
    cases readOne.symm.trans sameRead
    cases rooted.symm.trans sameRooted
    exact compiles leaf inNode

theorem assemble_composite_ok_iff {op : String} {combinator : Combinator}
    {filters : List RawFilter} (known : Combinator.ofSymbol? op = some combinator)
    (nonempty : filters ≠ []) :
    (∃ plan, assembler.assemble rootName (request.withFilters [.composite op filters]) = .ok plan) ↔
      ∃ plan, assembler.assemble rootName (request.withFilters filters) = .ok plan := by
  simp only [assemble_ok_iff, Request.withFilters, Node.ofRawAll_singleton_ok,
    Node.ofRaw_composite_ok, known]
  constructor
  · rintro ⟨_, root, ⟨_, ⟨_, first, rest, _, read, rfl⟩, rfl⟩, rooted, compiles, ordered⟩
    exact ⟨first :: rest, root, read, rooted,
      fun leaf held => compiles leaf (List.mem_append_left _ held), ordered⟩
  · rintro ⟨nodes, root, read, rooted, compiles, ordered⟩
    cases nodes with
    | nil =>
        have same := Node.groups_ofRawAll read
        simp [nonempty] at same
    | cons first rest =>
        refine ⟨_, root, ⟨_, ⟨combinator, first, rest, rfl, read, rfl⟩, rfl⟩, rooted, ?_, ordered⟩
        intro leaf held
        rw [Node.leavesOfAll, Node.leavesOfAll, List.append_nil] at held
        exact compiles leaf held

end Assembler

end FilterQuery
