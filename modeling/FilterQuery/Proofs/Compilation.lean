import FilterQuery.Proofs.Meaning
import FilterQuery.Proofs.PlannedLeaves

/-!
From a filter tree to the condition of a query. Main statements: a condition on a column or of a
subquery is true exactly when the part of the tree that it was made from holds; and a tree can be
compiled exactly when each of its conditions can be, wherever it stands.
-/

namespace FilterQuery

def Operator.order? : Operator → Option Comparison
  | .less => some .less
  | .lessOrEqual => some .lessOrEqual
  | .greater => some .greater
  | .greaterOrEqual => some .greaterOrEqual
  | _ => none

namespace Planned

inductive OnColumn (leaf : Leaf) (column : ColumnRef) : Condition → Prop where
  | equality (asks : leaf.operator = .equals ∨ leaf.operator = .contains) :
      OnColumn leaf column (.equals column leaf.value)
  | difference (asks : leaf.operator = .notEquals) :
      OnColumn leaf column (.differs column leaf.value)
  | order {comparison : Comparison} (asks : leaf.operator.order? = some comparison) :
      OnColumn leaf column (.compare column comparison leaf.value)
  | membership {values : List Value} (asks : leaf.operator = .isIn)
      (listed : leaf.value = .list values) :
      OnColumn leaf column (.member column values)
  | pattern {text : String} (asks : leaf.operator = .like) (written : leaf.value = .text text) :
      OnColumn leaf column (.like column text)

theorem onColumn_made {leaf : Leaf} {column : ColumnRef} {condition : Condition}
    (built : onColumn leaf column = .ok condition) : OnColumn leaf column condition := by
  unfold onColumn at built
  cases operator : leaf.operator <;> simp only [operator] at built
  case equals =>
    cases built
    exact .equality (.inl operator)
  case contains =>
    cases built
    exact .equality (.inr operator)
  case notEquals =>
    cases built
    exact .difference operator
  case less | lessOrEqual | greater | greaterOrEqual =>
    cases built
    exact .order (congrArg Operator.order? operator)
  case isIn =>
    cases value : leaf.value <;> simp only [value] at built <;> cases built
    exact .membership operator value
  case like =>
    cases value : leaf.value <;> simp only [value] at built <;> cases built
    exact .pattern operator value

end Planned

section Truth

variable {Content : Type} [DecidableEq Content] (store : Store Content)
  (database : Database Content) (bindings : Bindings Content)

theorem Condition.truths_eq_map (parts : List Condition) :
    Condition.truths store database parts bindings =
      parts.map (·.truth store database bindings) := by
  induction parts with
  | nil => rfl
  | cons part rest ih => rw [Condition.truths, List.map_cons, ih]

theorem Condition.truth_member (column : ColumnRef) (values : List Value) :
    (Condition.member column values).truth store database bindings =
      .any (values.map (store.compared .equal (bindings.read column))) := by
  cases values with
  | nil => simp [member, Condition.truth, Truth.any, Truth.of]
  | cons value rest => simp [member, Condition.truth]

theorem Condition.truth_equals (column : ColumnRef) (value : Value) :
    (Condition.equals column value).truth store database bindings =
      store.same (bindings.read column) value := by
  cases value with
  | null => simp [equals, Condition.truth, Store.same]
  | list values => exact truth_member store database bindings column values
  | _ => simp [equals, Condition.truth, Store.same]

theorem Condition.truth_differs (column : ColumnRef) (value : Value) :
    (Condition.differs column value).truth store database bindings =
      store.differs (bindings.read column) value := by
  cases value with
  | null =>
      cases held : bindings.read column <;> simp [differs, Condition.truth, Store.differs, held]
  | _ => simp [differs, Condition.truth, Store.differs]

omit [DecidableEq Content] in
theorem Store.asks_order {operator : Operator} {comparison : Comparison}
    (orders : operator.order? = some comparison) (held : Option Content) (value : Value) :
    store.asks operator held value = store.compared comparison held value := by
  cases operator <;> cases orders <;> rfl

theorem Planned.truth_onColumn {leaf : Leaf} {column : ColumnRef} {condition : Condition}
    (built : onColumn leaf column = .ok condition) :
    condition.truth store database bindings =
      store.asks leaf.operator (bindings.read column) leaf.value := by
  cases onColumn_made built with
  | equality asks =>
      rw [Condition.truth_equals]
      rcases asks with equals | contains
      · rw [equals, Store.asks]
      · rw [contains, Store.asks]
  | difference asks => rw [Condition.truth_differs, asks, Store.asks]
  | order asks => rw [Condition.truth, Store.asks_order store asks]
  | membership asks listed => rw [Condition.truth_member, asks, listed, Store.asks]
  | pattern asks written => rw [Condition.truth, asks, written, Store.asks]

end Truth

theorem Planned.onColumn_ok_iff (leaf : Leaf) (first second : ColumnRef) :
    (∃ condition, onColumn leaf first = .ok condition) ↔
      ∃ condition, onColumn leaf second = .ok condition := by
  unfold onColumn
  cases leaf.operator <;> simp only [Except.ok.injEq, exists_eq']
  case isIn | like => split <;> simp

namespace Aim

def condition (leaf : Leaf) (binding : String) (number : Nat) : Aim → Except Fault Condition
  | .own column => Planned.onColumn leaf ⟨binding, column⟩
  | .member hop column =>
      .ok (.someRelated (hop.join binding (Planned.subqueryBinding number))
        (.equals ⟨Planned.subqueryBinding number, column⟩ leaf.value))

theorem condition_ok_iff (aim : Aim) (leaf : Leaf) (first second : String) (number other : Nat) :
    (∃ condition, aim.condition leaf first number = .ok condition) ↔
      ∃ condition, aim.condition leaf second other = .ok condition := by
  cases aim with
  | own column => exact Planned.onColumn_ok_iff leaf _ _
  | member hop column => simp [condition]

variable {Content : Type} [DecidableEq Content]

theorem truth_condition (store : Store Content) (database : Database Content)
    (bindings : Bindings Content) {aim : Aim} {leaf : Leaf} {binding : String} {number : Nat}
    {condition : Condition} (compiled : aim.condition leaf binding number = .ok condition)
    (apart : ∀ isLink, binding ≠ TableName.text ⟨.searched, number, isLink⟩) :
    condition.truth store database bindings = .yes ↔
      leaf.HoldsOf store database (bindings binding) aim := by
  cases aim with
  | own column => rw [Planned.truth_onColumn store database bindings compiled]; rfl
  | member hop column =>
      have own : binding ≠ Planned.subqueryBinding number := by
        rw [TableName.subqueryBinding_eq]
        exact apart false
      have link : binding ≠ Join.linkBinding (Planned.subqueryBinding number) := by
        rw [TableName.subqueryBinding_eq, ← TableName.text_linking rfl]
        exact apart true
      cases compiled
      simp only [Condition.truth, Truth.of_eq_yes, List.any_eq_true, decide_eq_true_eq,
        Condition.truth_equals, Leaf.HoldsOf]
      constructor
      · rintro ⟨found, member, same⟩
        obtain ⟨linkRow, related, leads, rfl⟩ := (Hop.mem_search _ _ _ _ own link).mp member
        rw [Bindings.read, Hop.bindRows_related] at same
        exact ⟨linkRow, related, leads, same⟩
      · rintro ⟨linkRow, related, leads, same⟩
        refine ⟨_, (Hop.mem_search _ _ _ _ own link).mpr ⟨linkRow, related, leads, rfl⟩, ?_⟩
        rwa [Bindings.read, Hop.bindRows_related]

end Aim

namespace Leaf

variable {graph : RelationGraph} {names : PropertyMap} {entityName : String} {leaf : Leaf}

theorem aim_member {hop : Hop} {column : String}
    (aimed : leaf.aim graph names entityName = .ok (.member hop column)) :
    leaf.operator = .contains ∧ ∃ relation, graph.hop entityName relation = .ok hop := by
  unfold aim at aimed
  split at aimed
  · rename_i searches
    obtain ⟨found, leads, aimed⟩ := bind_ok_iff.mp aimed
    refine ⟨searches, _, leads.trans ?_⟩
    -- Either way along the relation, the hop is the one that was found.
    split at aimed
    all_goals
      obtain ⟨_, _, same⟩ := map_ok_iff.mp aimed
      rw [(Aim.member.inj same).1]
  · obtain ⟨_, _, same⟩ := map_ok_iff.mp aimed
    cases same

end Leaf

namespace Planned

/-- What a condition is made of depends on its path only by the entity that the path leads to. -/
theorem buildLeaf_eq (planned : Planned) (leaf : Leaf) (subqueries : Nat) {target : Target}
    (reached : planned.plan.target planned.names leaf.joinSegments leaf.group = .ok target) :
    (planned.buildLeaf leaf subqueries).1 =
      (leaf.aim planned.graph planned.names target.entity).bind
        (·.condition leaf target.binding (subqueries + 1)) := by
  unfold buildLeaf Leaf.aim
  simp only [reached]
  by_cases searches : leaf.operator = .contains
  · simp only [searches, if_true, buildContains]
    obtain ⟨relation, named⟩ := collection leaf.path
    simp only
    cases declared : planned.graph.relation target.entity (planned.names.resolve relation) with
    | error fault => simp [RelationGraph.hop, declared, bind, Except.bind]
    | ok found =>
        simp only [search, Hop.resolve_of_relation declared]
        cases planned.graph.hop target.entity (planned.names.resolve relation) with
        | error fault => rfl
        | ok hop =>
            cases named with
            | some name =>
                simp only [bind, Except.bind, Except.map, relatedColumn, column,
                  Join.target, Hop.join]
                cases planned.graph.column hop.related.name (planned.names.resolve name) <;> rfl
            | none =>
                simp only [bind, Except.bind, Except.map, relatedColumn, Hop.join]
                cases planned.graph.entity hop.related.name <;> rfl
  · simp only [searches, if_false, column, bind, Except.bind, Except.map]
    cases planned.graph.column target.entity
      (planned.names.resolve leaf.path.attributeName) <;> rfl

theorem buildLeaf_ok {planned : Planned} {leaf : Leaf} {subqueries : Nat} {condition : Condition}
    (built : (planned.buildLeaf leaf subqueries).1 = .ok condition) :
    ∃ target aim, planned.plan.target planned.names leaf.joinSegments leaf.group = .ok target ∧
      leaf.aim planned.graph planned.names target.entity = .ok aim ∧
      aim.condition leaf target.binding (subqueries + 1) = .ok condition := by
  cases reached : planned.plan.target planned.names leaf.joinSegments leaf.group with
  | error fault => simp [buildLeaf, reached] at built
  | ok target =>
      rw [buildLeaf_eq planned leaf subqueries reached] at built
      obtain ⟨aim, aimed, compiled⟩ := bind_ok_iff.mp built
      exact ⟨target, aim, rfl, aimed, compiled⟩

theorem build_composite_ok (planned : Planned) (combinator : Combinator) (first : Node)
    (rest : List Node) (subqueries : Nat) (condition : Condition) :
    (planned.build (.composite combinator first rest) subqueries).1 = .ok condition ↔
      ∃ head others, (planned.build first subqueries).1 = .ok head ∧
        (planned.buildGroups rest (planned.build first subqueries).2).1 = .ok others ∧
        condition = combine combinator (.group head :: others) := by
  rw [build]
  rcases planned.build first subqueries with ⟨_ | head, after⟩
  · simp
  · simp only [Except.ok.injEq, exists_and_left, exists_eq_left']
    rcases planned.buildGroups rest after with ⟨_ | others, last⟩ <;> simp [eq_comm]

theorem buildGroups_cons_ok (planned : Planned) (node : Node) (rest : List Node) (subqueries : Nat)
    (conditions : List Condition) :
    (planned.buildGroups (node :: rest) subqueries).1 = .ok conditions ↔
      ∃ head others, (planned.build node subqueries).1 = .ok head ∧
        (planned.buildGroups rest (planned.build node subqueries).2).1 = .ok others ∧
        conditions = .group head :: others := by
  rw [buildGroups]
  rcases planned.build node subqueries with ⟨_ | head, after⟩
  · simp
  · simp only [Except.ok.injEq, exists_and_left, exists_eq_left']
    rcases planned.buildGroups rest after with ⟨_ | others, last⟩ <;> simp [eq_comm]

theorem build_composite_error (planned : Planned) (combinator : Combinator) (first : Node)
    (rest : List Node) (subqueries : Nat) (fault : Fault) :
    (planned.build (.composite combinator first rest) subqueries).1 = .error fault ↔
      (planned.build first subqueries).1 = .error fault ∨
        ∃ head, (planned.build first subqueries).1 = .ok head ∧
          (planned.buildGroups rest (planned.build first subqueries).2).1 = .error fault := by
  rw [build]
  rcases planned.build first subqueries with ⟨_ | head, after⟩
  · simp
  · rcases ran : planned.buildGroups rest after with ⟨_ | others, last⟩ <;> simp [ran]

theorem buildGroups_cons_error (planned : Planned) (node : Node) (rest : List Node)
    (subqueries : Nat) (fault : Fault) :
    (planned.buildGroups (node :: rest) subqueries).1 = .error fault ↔
      (planned.build node subqueries).1 = .error fault ∨
        ∃ head, (planned.build node subqueries).1 = .ok head ∧
          (planned.buildGroups rest (planned.build node subqueries).2).1 = .error fault := by
  rw [buildGroups]
  rcases planned.build node subqueries with ⟨_ | head, after⟩
  · simp
  · rcases ran : planned.buildGroups rest after with ⟨_ | others, last⟩ <;> simp [ran]

theorem build_composite_count (planned : Planned) (combinator : Combinator) {first : Node}
    (rest : List Node) {subqueries : Nat} {head : Condition}
    (built : (planned.build first subqueries).1 = .ok head) :
    (planned.build (.composite combinator first rest) subqueries).2 =
      (planned.buildGroups rest (planned.build first subqueries).2).2 := by
  rw [build]
  rcases ran : planned.build first subqueries with ⟨outcome, after⟩
  rw [ran] at built
  cases built
  simp only
  rcases planned.buildGroups rest after with ⟨_ | _, last⟩ <;> rfl

theorem buildGroups_cons_count (planned : Planned) {node : Node} (rest : List Node)
    {subqueries : Nat} {head : Condition} (built : (planned.build node subqueries).1 = .ok head) :
    (planned.buildGroups (node :: rest) subqueries).2 =
      (planned.buildGroups rest (planned.build node subqueries).2).2 := by
  rw [buildGroups]
  rcases ran : planned.build node subqueries with ⟨outcome, after⟩
  rw [ran] at built
  cases built
  simp only
  rcases planned.buildGroups rest after with ⟨_ | _, last⟩ <;> rfl

section Tree

variable {Content : Type} [DecidableEq Content] {store : Store Content}
  {database : Database Content} {bindings : Bindings Content} {planned : Planned}
  {asked : Leaf → Prop}

theorem truth_combine (combinator : Combinator) (first : Node) (rest : List Node)
    {head : Condition} {others : List Condition}
    (sameFirst : head.truth store database bindings = .yes ↔ first.Holds asked)
    (sameRest : List.Forall₂ (fun node (condition : Condition) =>
      condition.truth store database bindings = .yes ↔ node.Holds asked) rest others) :
    (combine combinator (.group head :: others)).truth store database bindings = .yes ↔
      (Node.composite combinator first rest).Holds asked := by
  cases combinator with
  | and =>
      have tail : (∀ other ∈ others, other.truth store database bindings = .yes) ↔
          Node.AllHold asked rest := by
        induction sameRest with
        | nil => simp [Node.AllHold]
        | cons same _ ih => simp [Node.AllHold, ih, same]
      simp [combine, Condition.truth, Condition.truths_eq_map, Truth.all_eq_yes, Node.Holds,
        sameFirst, tail]
  | or =>
      have tail : (∃ other ∈ others, other.truth store database bindings = .yes) ↔
          Node.SomeHolds asked rest := by
        induction sameRest with
        | nil => simp [Node.SomeHolds]
        | cons same _ ih => simp [Node.SomeHolds, ih, same]
      simp [combine, Condition.truth, Condition.truths_eq_map, Truth.any_eq_yes, Node.Holds,
        @eq_comm _ Truth.yes, sameFirst, tail]

mutual

/-- A compiled tree is true exactly when the tree holds, once this is known of its conditions. -/
theorem truth_build : (node : Node) → (∀ leaf ∈ node.leaves, ∀ subqueries condition,
      (planned.buildLeaf leaf subqueries).1 = .ok condition →
        (condition.truth store database bindings = .yes ↔ asked leaf)) →
    ∀ {subqueries condition}, (planned.build node subqueries).1 = .ok condition →
      (condition.truth store database bindings = .yes ↔ node.Holds asked)
  | .leaf leaf, known, subqueries, condition, built =>
      known leaf (List.mem_singleton_self _) subqueries condition built
  | .composite combinator first rest, known, subqueries, condition, built => by
      obtain ⟨head, others, builtFirst, builtRest, rfl⟩ :=
        (build_composite_ok planned combinator first rest subqueries condition).mp built
      have sameFirst := truth_build first
        (fun leaf held => known leaf (List.mem_append_left _ held)) builtFirst
      have sameRest := truth_buildGroups rest
        (fun leaf held => known leaf (List.mem_append_right _ held)) builtRest
      exact truth_combine combinator first rest sameFirst sameRest

theorem truth_buildGroups : (nodes : List Node) → (∀ leaf ∈ Node.leavesOfAll nodes,
      ∀ subqueries condition, (planned.buildLeaf leaf subqueries).1 = .ok condition →
        (condition.truth store database bindings = .yes ↔ asked leaf)) →
    ∀ {subqueries conditions}, (planned.buildGroups nodes subqueries).1 = .ok conditions →
      List.Forall₂ (fun node (condition : Condition) =>
        condition.truth store database bindings = .yes ↔ node.Holds asked) nodes conditions
  | [], _, _, conditions, built => by
      cases built
      exact List.Forall₂.nil
  | node :: rest, known, subqueries, conditions, built => by
      obtain ⟨head, others, builtFirst, builtRest, rfl⟩ :=
        (buildGroups_cons_ok planned node rest subqueries conditions).mp built
      have sameFirst := truth_build node
        (fun leaf held => known leaf (List.mem_append_left _ held)) builtFirst
      have sameRest := truth_buildGroups rest
        (fun leaf held => known leaf (List.mem_append_right _ held)) builtRest
      apply List.Forall₂.cons
      · rw [Condition.truth]
        exact sameFirst
      · exact sameRest

end

end Tree

section Success

variable {planned : Planned} {compiles : Leaf → Prop}

mutual

theorem build_ok_iff : (node : Node) → (∀ leaf ∈ node.leaves, ∀ subqueries,
      (∃ condition, (planned.buildLeaf leaf subqueries).1 = .ok condition) ↔ compiles leaf) →
    ∀ subqueries, (∃ condition, (planned.build node subqueries).1 = .ok condition) ↔
      ∀ leaf ∈ node.leaves, compiles leaf
  | .leaf leaf, known, subqueries => by
      rw [Node.leaves, List.forall_mem_singleton]
      exact known leaf (List.mem_singleton_self _) subqueries
  | .composite combinator first rest, known, subqueries => by
      have sameFirst := build_ok_iff first
        (fun leaf held => known leaf (List.mem_append_left _ held)) subqueries
      have sameRest := buildGroups_ok_iff rest
        (fun leaf held => known leaf (List.mem_append_right _ held))
        (planned.build first subqueries).2
      simp only [Node.leaves, List.forall_mem_append, ← sameFirst, ← sameRest, build_composite_ok]
      constructor
      · rintro ⟨_, head, others, builtFirst, builtRest, _⟩
        exact ⟨⟨head, builtFirst⟩, others, builtRest⟩
      · rintro ⟨⟨head, builtFirst⟩, others, builtRest⟩
        exact ⟨_, head, others, builtFirst, builtRest, rfl⟩

theorem buildGroups_ok_iff : (nodes : List Node) → (∀ leaf ∈ Node.leavesOfAll nodes, ∀ subqueries,
      (∃ condition, (planned.buildLeaf leaf subqueries).1 = .ok condition) ↔ compiles leaf) →
    ∀ subqueries, (∃ conditions, (planned.buildGroups nodes subqueries).1 = .ok conditions) ↔
      ∀ leaf ∈ Node.leavesOfAll nodes, compiles leaf
  | [], _, _ => by simp [buildGroups, Node.leavesOfAll]
  | node :: rest, known, subqueries => by
      have sameFirst := build_ok_iff node
        (fun leaf held => known leaf (List.mem_append_left _ held)) subqueries
      have sameRest := buildGroups_ok_iff rest
        (fun leaf held => known leaf (List.mem_append_right _ held))
        (planned.build node subqueries).2
      simp only [Node.leavesOfAll, List.forall_mem_append, ← sameFirst, ← sameRest,
        buildGroups_cons_ok]
      constructor
      · rintro ⟨_, head, others, builtFirst, builtRest, _⟩
        exact ⟨⟨head, builtFirst⟩, others, builtRest⟩
      · rintro ⟨⟨head, builtFirst⟩, others, builtRest⟩
        exact ⟨_, head, others, builtFirst, builtRest, rfl⟩

end

end Success

end Planned

end FilterQuery
