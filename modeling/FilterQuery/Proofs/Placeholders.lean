import FilterQuery.Proofs.Faithfulness

/-!
Placeholders and their values. A statement is written part by part, and each placeholder takes its
number from the values that are bound already. Main statements: the placeholders are numbered from
the left without a gap, each in front of its own value; a dialect changes nothing but placeholders;
and the values are those of the conditions, in the order of the request.
-/

namespace FilterQuery

/-- The values that a condition binds. A null is asked for without a value, a list by its items. -/
def Leaf.bound (leaf : Leaf) : List Value :=
  match leaf.operator, leaf.value with
  | .equals, .null | .notEquals, .null | .contains, .null => []
  | .isIn, .list items | .contains, .list items => items
  | _, value => [value]

namespace Sql

/-- A statement that is being written: the texts of its parts, and the values bound so far. -/
structure Draft where
  texts : List (List Char)
  values : List Value

def Draft.push (dialect : Dialect) (draft : Draft) : Part → Draft
  | .parameter value =>
      ⟨draft.texts ++ [dialect.placeholder (draft.values.length + 1)], draft.values ++ [value]⟩
  | .fragment fixed => { draft with texts := draft.texts ++ [fixed.text.toList] }
  | .identifier name => { draft with texts := draft.texts ++ [identifier name.toList] }
  | .verbatim text => { draft with texts := draft.texts ++ [text.toList] }

def write (dialect : Dialect) (parts : List Part) : Draft :=
  parts.foldl (Draft.push dialect) ⟨[], []⟩

def texts (dialect : Dialect) : Nat → List Part → List (List Char)
  | _, [] => []
  | next, .parameter _ :: rest => dialect.placeholder next :: texts dialect (next + 1) rest
  | next, .fragment fixed :: rest => fixed.text.toList :: texts dialect next rest
  | next, .identifier name :: rest => identifier name.toList :: texts dialect next rest
  | next, .verbatim text :: rest => text.toList :: texts dialect next rest

def bound (parts : List Part) (texts : List (List Char)) : List (Value × List Char) :=
  (parts.zip texts).filterMap fun (part, text) => part.value?.map (·, text)

section Parameters

variable (rest : List Part)

@[simp]
theorem parameters_nil : parameters [] = [] := rfl

@[simp]
theorem parameters_parameter (value : Value) :
    parameters (.parameter value :: rest) = value :: parameters rest := rfl

@[simp]
theorem parameters_fragment (fixed : Fragment) :
    parameters (.fragment fixed :: rest) = parameters rest := rfl

@[simp]
theorem parameters_identifier (name : String) :
    parameters (.identifier name :: rest) = parameters rest := rfl

@[simp]
theorem parameters_verbatim (text : String) :
    parameters (.verbatim text :: rest) = parameters rest := rfl

@[simp]
theorem parameters_append (first second : List Part) :
    parameters (first ++ second) = parameters first ++ parameters second :=
  List.filterMap_append

end Parameters

section Writing

variable (dialect : Dialect) (parts : List Part)

theorem foldl_push (draft : Draft) :
    parts.foldl (Draft.push dialect) draft =
      ⟨draft.texts ++ texts dialect (draft.values.length + 1) parts,
        draft.values ++ parameters parts⟩ := by
  induction parts generalizing draft with
  | nil => simp [texts, parameters]
  | cons part rest ih =>
      rw [List.foldl_cons, ih]
      cases part <;> simp [Draft.push, texts]

theorem write_eq : write dialect parts = ⟨texts dialect 1 parts, parameters parts⟩ :=
  foldl_push dialect parts ⟨[], []⟩

theorem flatten_texts (next : Nat) :
    (texts dialect next parts).flatten = textFrom dialect next parts := by
  induction parts generalizing next with
  | nil => rfl
  | cons part rest ih => cases part <;> simp [texts, textFrom, ih]

theorem length_texts (next : Nat) : (texts dialect next parts).length = parts.length := by
  induction parts generalizing next with
  | nil => rfl
  | cons part rest ih => cases part <;> simp [texts, ih]

/-- Each value has its placeholder, and these are numbered in turn. -/
theorem bound_texts (next : Nat) :
    bound parts (texts dialect next parts) =
      (parameters parts).mapIdx fun index value => (value, dialect.placeholder (next + index)) := by
  induction parts generalizing next with
  | nil => rfl
  | cons part rest ih =>
      cases part with
      | parameter value =>
          have here :
              bound (.parameter value :: rest) (texts dialect next (.parameter value :: rest)) =
              (value, dialect.placeholder next) :: bound rest (texts dialect (next + 1) rest) := rfl
          rw [here, ih, parameters_parameter, List.mapIdx_cons]
          simp only [Nat.add_zero, Nat.add_assoc, Nat.add_comm 1]
      | fragment | identifier | verbatim => exact ih next

theorem texts_fixed (other : Dialect) (next : Nat) {index : Nat} {part : Part}
    (held : parts[index]? = some part) (fixed : part.value? = none) :
    (texts dialect next parts)[index]? = (texts other next parts)[index]? := by
  induction parts generalizing next index with
  | nil => cases held
  | cons first rest ih =>
      cases index with
      | zero =>
          cases held
          cases part <;> first | rfl | cases fixed
      | succ index => cases first <;> exact ih _ held

end Writing

/-! Only conditions hold values. -/

theorem parameters_separated (separator : Fragment) (pieces : List (List Part)) :
    parameters (separated separator pieces) = pieces.flatMap parameters := by
  induction pieces using separated.induct with
  | case1 => rfl
  | case2 first => simp [separated]
  | case3 first next rest ih => simp [separated, ih]

@[simp]
theorem parameters_column (named : ColumnRef) : parameters (column named) = [] := rfl

@[simp]
theorem parameters_table (name binding : String) : parameters (table name binding) = [] := by
  unfold table
  split <;> rfl

@[simp]
theorem parameters_equalities (pairs : List KeyPair) : parameters (equalities pairs) = [] := by
  rw [equalities, parameters_separated, List.flatMap_map, List.flatMap_eq_nil_iff]
  intro pair _
  simp [equality]

@[simp]
theorem parameters_innerJoin (name binding : String) (keys : List KeyPair) :
    parameters (innerJoin name binding keys) = [] := by
  simp [innerJoin]

@[simp]
theorem parameters_join (added : Join) : parameters (join added) = [] := by
  cases linked : added.link <;> simp [join, linked]

@[simp]
theorem parameters_related (added : Join) : parameters (related added).1 = [] := by
  cases linked : added.link <;> simp [related, linked]

theorem parameters_literal (value : Bool) : parameters (condition (.literal value)) = [] := by
  cases value <;> rfl

theorem parameters_compare (tested : ColumnRef) (comparison : Comparison) (value : Value) :
    parameters (condition (.compare tested comparison value)) = [value] := by
  simp [condition]

theorem parameters_isNull (tested : ColumnRef) (negated : Bool) :
    parameters (condition (.isNull tested negated)) = [] := by
  cases negated <;> simp [condition]

theorem parameters_member (tested : ColumnRef) (values : List Value) :
    parameters (condition (.member tested values)) = values := by
  cases values with
  | nil => exact parameters_literal false
  | cons value rest =>
      simp [Condition.member, condition, parameters_separated, List.flatMap_map]

theorem parameters_like (tested : ColumnRef) (pattern : String) :
    parameters (condition (.like tested pattern)) = [.text pattern] := by
  simp [condition]

theorem parameters_someRelated (added : Join) (inner : Condition) :
    parameters (condition (.someRelated added inner)) = parameters (condition inner) := by
  simp [condition]

theorem parameters_group (inner : Condition) :
    parameters (condition (.group inner)) = parameters (condition inner) := by
  simp [condition]

theorem parameters_conditionsAfter (connective : Fragment) (parts : List Condition) :
    parameters (conditionsAfter connective parts) =
      parts.flatMap fun part => parameters (condition part) := by
  induction parts with
  | nil => rfl
  | cons part rest ih => simp [conditionsAfter, ih]

theorem parameters_combine (combinator : Combinator) (first : Condition) (rest : List Condition) :
    parameters (condition (Planned.combine combinator (first :: rest))) =
      (first :: rest).flatMap fun part => parameters (condition part) := by
  cases combinator <;> simp [Planned.combine, condition, parameters_conditionsAfter]

end Sql

namespace Leaf

variable {leaf : Leaf}

theorem bound_of_equals {column : ColumnRef} (equality : leaf.operator = .equals)
    (accepted : leaf.Accepted) :
    Sql.parameters (Sql.condition (.equals column leaf.value)) = leaf.bound := by
  unfold Accepted at accepted
  unfold bound
  rw [equality] at accepted ⊢
  cases value : leaf.value with
  | null => exact Sql.parameters_isNull column false
  | list items => simp [value, Operator.accepts] at accepted
  | _ => exact Sql.parameters_compare column .equal _

theorem bound_of_contains {column : ColumnRef} (searches : leaf.operator = .contains) :
    Sql.parameters (Sql.condition (.equals column leaf.value)) = leaf.bound := by
  unfold bound
  rw [searches]
  cases leaf.value with
  | null => exact Sql.parameters_isNull column false
  | list items => exact Sql.parameters_member column items
  | _ => exact Sql.parameters_compare column .equal _

theorem bound_of_order {comparison : Comparison} (orders : leaf.operator.order? = some comparison) :
    leaf.bound = [leaf.value] := by
  unfold bound
  cases operator : leaf.operator with
  | less | lessOrEqual | greater | greaterOrEqual => rfl
  | equals | notEquals | isIn | like | contains => simp [operator, Operator.order?] at orders

theorem parameters_onColumn {column : ColumnRef} {condition : Condition} (accepted : leaf.Accepted)
    (built : Planned.onColumn leaf column = .ok condition) :
    Sql.parameters (Sql.condition condition) = leaf.bound := by
  cases Planned.onColumn_made built with
  | equality asks =>
      rcases asks with equals | contains
      · exact bound_of_equals equals accepted
      · exact bound_of_contains contains
  | difference asks =>
      unfold bound
      rw [asks]
      cases leaf.value with
      | null => exact Sql.parameters_isNull column true
      | _ => exact Sql.parameters_compare column .notEqual _
  | order asks => rw [Sql.parameters_compare, bound_of_order asks]
  | membership asks listed =>
      rw [Sql.parameters_member]
      simp [bound, asks, listed]
  | pattern asks written =>
      rw [Sql.parameters_like]
      simp [bound, asks, written]

end Leaf

namespace Planned

variable {planned : Planned}

theorem parameters_buildLeaf {leaf : Leaf} {subqueries : Nat} {condition : Condition}
    (accepted : leaf.Accepted) (built : (planned.buildLeaf leaf subqueries).1 = .ok condition) :
    Sql.parameters (Sql.condition condition) = leaf.bound := by
  obtain ⟨target, aim, _, aimed, compiled⟩ := buildLeaf_ok built
  cases aim with
  | own column => exact Leaf.parameters_onColumn accepted compiled
  | member hop column =>
      cases compiled
      rw [Sql.parameters_someRelated]
      exact Leaf.bound_of_contains (Leaf.aim_member aimed).1

mutual

theorem parameters_build : (node : Node) → (∀ leaf ∈ node.leaves, leaf.Accepted) →
    ∀ {subqueries condition}, (planned.build node subqueries).1 = .ok condition →
      Sql.parameters (Sql.condition condition) = node.leaves.flatMap Leaf.bound
  | .leaf leaf, accepted, subqueries, condition, built => by
      rw [Node.leaves, List.flatMap_singleton]
      exact parameters_buildLeaf (accepted leaf (List.mem_singleton_self _)) built
  | .composite combinator first rest, accepted, subqueries, condition, built => by
      obtain ⟨head, others, builtFirst, builtRest, rfl⟩ :=
        (build_composite_ok planned combinator first rest subqueries condition).mp built
      obtain ⟨acceptedFirst, acceptedRest⟩ := List.forall_mem_append.mp accepted
      rw [Sql.parameters_combine, List.flatMap_cons, Sql.parameters_group,
        parameters_build first acceptedFirst builtFirst,
        parameters_buildGroups rest acceptedRest builtRest, Node.leaves, List.flatMap_append]

theorem parameters_buildGroups : (nodes : List Node) →
    (∀ leaf ∈ Node.leavesOfAll nodes, leaf.Accepted) → ∀ {subqueries conditions},
      (planned.buildGroups nodes subqueries).1 = .ok conditions →
        conditions.flatMap (fun condition => Sql.parameters (Sql.condition condition)) =
          (Node.leavesOfAll nodes).flatMap Leaf.bound
  | [], _, _, _, built => by
      cases built
      rfl
  | node :: rest, accepted, subqueries, conditions, built => by
      obtain ⟨head, others, builtFirst, builtRest, rfl⟩ :=
        (buildGroups_cons_ok planned node rest subqueries conditions).mp built
      obtain ⟨acceptedFirst, acceptedRest⟩ := List.forall_mem_append.mp accepted
      rw [List.flatMap_cons, Sql.parameters_group, parameters_build node acceptedFirst builtFirst,
        parameters_buildGroups rest acceptedRest builtRest, Node.leavesOfAll, List.flatMap_append]

end

end Planned

namespace QueryPlan

theorem parameters_orderParts (clauses : List OrderClause) :
    Sql.parameters (orderParts clauses) = [] := by
  cases clauses with
  | nil => rfl
  | cons first rest =>
      rw [orderParts, Sql.parameters_fragment, Sql.parameters_separated, List.flatMap_map,
        List.flatMap_eq_nil_iff]
      · intro clause _
        simp
      · simp

theorem parameters_eq (plan : QueryPlan) :
    plan.parameters =
      match plan.condition with
      | some condition => Sql.parameters (Sql.condition condition)
      | none => [] := by
  have distinct : Sql.parameters (if plan.distinct then [.fragment .distinct] else []) = [] := by
    split <;> rfl
  have joins : Sql.parameters (plan.joins.flatMap Sql.join) = [] := by
    rw [Sql.parameters, List.filterMap_flatMap, List.flatMap_eq_nil_iff]
    exact fun join _ => Sql.parameters_join join
  simp only [parameters, parts, Sql.parameters_fragment, Sql.parameters_append,
    Sql.parameters_identifier, Sql.parameters_table, parameters_orderParts, distinct, joins,
    List.nil_append, List.append_nil]
  cases plan.condition <;> rfl

/-- In a dialect, the placeholders are numbered in turn and each stands for its own value; the other
parts are the same in every dialect. -/
structure Aligned (plan : QueryPlan) (dialect : Dialect) : Prop where
  text : String.ofList (Sql.write dialect plan.parts).texts.flatten = plan.sql dialect
  values : (Sql.write dialect plan.parts).values = plan.parameters
  length : (Sql.write dialect plan.parts).texts.length = plan.parts.length
  placeholders : Sql.bound plan.parts (Sql.write dialect plan.parts).texts =
    plan.parameters.mapIdx fun index value => (value, dialect.placeholder (index + 1))
  fixed : ∀ {index : Nat} {part} other, plan.parts[index]? = some part →
    Sql.Part.value? part = none →
    (Sql.write dialect plan.parts).texts[index]? = (Sql.write other plan.parts).texts[index]?

theorem aligned (plan : QueryPlan) (dialect : Dialect) : plan.Aligned dialect := by
  refine ⟨?_, ?_, ?_, ?_, ?_⟩
  · rw [Sql.write_eq, Sql.flatten_texts]
    rfl
  · rw [Sql.write_eq]
    rfl
  · rw [Sql.write_eq, Sql.length_texts]
  · rw [Sql.write_eq, Sql.bound_texts]
    simp only [Nat.add_comm 1]
    rfl
  · intro index part other held fixed
    rw [Sql.write_eq, Sql.write_eq]
    exact Sql.texts_fixed dialect plan.parts other 1 held fixed

end QueryPlan

/-- Whatever the dialect, the values of a request's conditions stand behind the placeholders, in
order. -/
theorem Assembler.parameters_aligned (assembler : Assembler) (rootName : String) (request : Request)
    {plan : QueryPlan} (assembled : assembler.assemble rootName request = .ok plan) :
    ∃ nodes, Node.ofRawAll assembler.settings.defaultGroup request.filters = .ok nodes ∧
      plan.parameters = (Node.leavesOfAll nodes).flatMap Leaf.bound ∧
        ∀ dialect, plan.Aligned dialect := by
  obtain ⟨nodes, root, joined, read, _, made⟩ := assembled_of_assemble assembled
  refine ⟨nodes, read, ?_, plan.aligned⟩
  have accepted := Node.accepted_ofRawAll request.filters read
  have condition := made.condition
  rw [plan.parameters_eq]
  cases tied : tree nodes with
  | none =>
      rw [tied] at condition
      rw [condition, eq_nil_of_tree tied]
      rfl
  | some node =>
      rw [tied] at condition
      obtain ⟨compiled, held, built⟩ := condition
      rw [← leaves_tree tied] at accepted ⊢
      rw [held]
      exact Planned.parameters_build node accepted built

namespace Shelter

/-- A null and an empty list bind nothing, a list binds its items. -/
def manyValues : Request where
  filters := [asks "toys.name" "=" "ball",
    .composite "or" [.leaf "name" "!=" .null none, .leaf "id" "in" (.list [.integer 3, .null]) none,
      .leaf "name" "in" (.list []) none, asks "keeper" "contains" "7"]]

end Shelter

theorem Assembler.parameters_aligned_many :
    ∃ plan, Shelter.assembler.assemble "Pet" Shelter.manyValues = .ok plan ∧
      plan.parameters = [.text "ball", .integer 3, .null, .text "7"] ∧
        ∀ dialect, plan.Aligned dialect := by
  obtain ⟨plan, assembled⟩ : ∃ plan,
      Shelter.assembler.assemble "Pet" Shelter.manyValues = .ok plan := ⟨_, rfl⟩
  obtain ⟨nodes, read, values, aligned⟩ :=
    parameters_aligned Shelter.assembler "Pet" Shelter.manyValues assembled
  obtain ⟨known, readKnown, bound⟩ : ∃ known,
      Node.ofRawAll Shelter.assembler.settings.defaultGroup Shelter.manyValues.filters = .ok known ∧
        (Node.leavesOfAll known).flatMap Leaf.bound =
          [.text "ball", .integer 3, .null, .text "7"] :=
    ⟨_, rfl, rfl⟩
  cases readKnown.symm.trans read
  exact ⟨plan, assembled, values.trans bound, aligned⟩

end FilterQuery
