import FilterQuery.Proofs.Placeholders

/-!
Two requests that differ in values only. What is planned and written depends on a value by its shape
alone: whether it is null, a list of some length, or anything else. Main statement: when the values
in the same places have the same shape, the two plans are the same but for the values that they
bind, and so are their texts in every dialect.
-/

namespace FilterQuery

inductive Shape where
  | absent
  | items (count : Nat)
  | single
  deriving DecidableEq, Repr

def Value.shape : Value → Shape
  | .null => .absent
  | .list items => .items items.length
  | _ => .single

def Json.shape? (json : Json) : Option Shape :=
  match Value.ofJson json with
  | .ok value => some value.coerce.shape
  | .error _ => none

namespace RawFilter

mutual

/-- The entries differ in nothing but values, and values in the same place have the same shape. -/
def Alike : RawFilter → RawFilter → Prop
  | .leaf field op value group, .leaf otherField otherOp otherValue otherGroup =>
      field = otherField ∧ op = otherOp ∧ group = otherGroup ∧ value.shape? = otherValue.shape?
  | .composite op children, .composite otherOp others => op = otherOp ∧ AllAlike children others
  | _, _ => False

def AllAlike : List RawFilter → List RawFilter → Prop
  | [], [] => True
  | entry :: rest, other :: others => entry.Alike other ∧ AllAlike rest others
  | _, _ => False

end

end RawFilter

structure Leaf.Alike (leaf other : Leaf) : Prop where
  path : leaf.path = other.path
  operator : leaf.operator = other.operator
  group : leaf.group = other.group
  shape : leaf.value.shape = other.value.shape

namespace Node

mutual

def Alike : Node → Node → Prop
  | .leaf condition, .leaf other => condition.Alike other
  | .composite combinator first rest, .composite otherCombinator other others =>
      combinator = otherCombinator ∧ first.Alike other ∧ AllAlike rest others
  | _, _ => False

def AllAlike : List Node → List Node → Prop
  | [], [] => True
  | node :: rest, other :: others => node.Alike other ∧ AllAlike rest others
  | _, _ => False

end

variable {standard : String}

theorem leafOfRaw_alike {field op group : String} {json otherJson : Json} {leaf other : Leaf}
    (same : json.shape? = otherJson.shape?) (read : leafOfRaw field op json group = .ok leaf)
    (readOther : leafOfRaw field op otherJson group = .ok other) : leaf.Alike other := by
  obtain ⟨operator, value, path, named, made, parsed, _, rfl⟩ := leafOfRaw_ok_iff.mp read
  obtain ⟨_, otherValue, _, namedOther, madeOther, parsedOther, _, rfl⟩ :=
    leafOfRaw_ok_iff.mp readOther
  cases named.symm.trans namedOther
  cases parsed.symm.trans parsedOther
  simp only [Json.shape?, made, madeOther, Option.some.injEq] at same
  exact ⟨rfl, rfl, rfl, same⟩

mutual

theorem ofRaw_alike : (entry other : RawFilter) → entry.Alike other → ∀ {node otherNode},
    ofRaw standard entry = .ok node → ofRaw standard other = .ok otherNode → node.Alike otherNode
  | .leaf field op value own, .leaf .., ⟨rfl, rfl, rfl, same⟩, node, otherNode, read,
    readOther => by
      obtain ⟨leaf, condition, rfl⟩ := ofRaw_leaf_ok_iff.mp read
      obtain ⟨other, otherCondition, rfl⟩ := ofRaw_leaf_ok_iff.mp readOther
      exact leafOfRaw_alike same condition otherCondition
  | .composite op entries, .composite _ others, ⟨rfl, alike⟩, node, otherNode, read, readOther => by
      obtain ⟨combinator, first, rest, named, readAll, rfl⟩ :=
        (ofRaw_composite_ok op _ node).mp read
      obtain ⟨_, other, others, namedOther, readOthers, rfl⟩ :=
        (ofRaw_composite_ok op _ otherNode).mp readOther
      cases named.symm.trans namedOther
      exact ⟨rfl, ofRawAll_alike entries _ alike readAll readOthers⟩

theorem ofRawAll_alike : (entries others : List RawFilter) → RawFilter.AllAlike entries others →
    ∀ {nodes otherNodes}, ofRawAll standard entries = .ok nodes →
      ofRawAll standard others = .ok otherNodes → AllAlike nodes otherNodes
  | [], [], _, _, _, read, readOther => by
      cases read
      cases readOther
      trivial
  | entry :: rest, other :: others, ⟨alike, alikeRest⟩, nodes, otherNodes, read, readOther => by
      obtain ⟨first, nodes, readFirst, readRest, rfl⟩ := (ofRawAll_cons_ok _ _ _).mp read
      obtain ⟨second, otherNodes, readSecond, readOthers, rfl⟩ :=
        (ofRawAll_cons_ok _ _ _).mp readOther
      exact ⟨ofRaw_alike entry other alike readFirst readSecond,
        ofRawAll_alike rest others alikeRest readRest readOthers⟩

end

mutual

theorem leaves_alike : (node other : Node) → node.Alike other →
    List.Forall₂ Leaf.Alike node.leaves other.leaves
  | .leaf _, .leaf _, alike => .cons alike .nil
  | .composite _ first rest, .composite _ other others, ⟨_, alike, alikeRest⟩ =>
      List.rel_append (leaves_alike first other alike) (leavesOfAll_alike rest others alikeRest)

theorem leavesOfAll_alike : (nodes others : List Node) → AllAlike nodes others →
    List.Forall₂ Leaf.Alike (leavesOfAll nodes) (leavesOfAll others)
  | [], [], _ => .nil
  | node :: rest, other :: others, ⟨alike, alikeRest⟩ =>
      List.rel_append (leaves_alike node other alike) (leavesOfAll_alike rest others alikeRest)

end

end Node

/-! What is planned. -/

theorem Leaf.Alike.joinSegments {leaf other : Leaf} (alike : leaf.Alike other) :
    leaf.joinSegments = other.joinSegments := by
  rw [Leaf.joinSegments, Leaf.joinSegments, alike.operator, alike.path]

theorem JoinPlan.planLeaves_alike {graph : RelationGraph} {names : PropertyMap} {start : JoinPlan}
    {leaves others : List Leaf} (alike : List.Forall₂ Leaf.Alike leaves others) :
    start.planLeaves graph names leaves = start.planLeaves graph names others := by
  induction alike generalizing start with
  | nil => rfl
  | cons head _ ih =>
      rw [planLeaves, planLeaves, head.joinSegments, head.group]
      simp only [ih]

/-! What is compiled. -/

namespace Condition

mutual

/-- The condition with its values struck out. A list keeps its length. -/
def erased : Condition → Condition
  | .compare column comparison _ => .compare column comparison .null
  | .isIn column values => .isIn column (values.map fun _ => .null)
  | .like column _ => .like column ""
  | .someRelated join inner => .someRelated join inner.erased
  | .group inner => .group inner.erased
  | .all parts => .all (erasedAll parts)
  | .any parts => .any (erasedAll parts)
  | valueless => valueless

def erasedAll : List Condition → List Condition
  | [] => []
  | part :: rest => part.erased :: erasedAll rest

end

theorem erased_combine {combinator : Combinator} {parts others : List Condition}
    (same : erasedAll parts = erasedAll others) :
    (Planned.combine combinator parts).erased = (Planned.combine combinator others).erased := by
  cases combinator <;> simp [Planned.combine, erased, same]

theorem erased_member (column : ColumnRef) {values others : List Value}
    (same : values.length = others.length) :
    (member column values).erased = (member column others).erased := by
  cases values with
  | nil =>
      cases others with
      | nil => rfl
      | cons => cases same
  | cons value rest =>
      cases others with
      | nil => cases same
      | cons => simpa [member, erased] using same

theorem erased_equals (column : ColumnRef) {value other : Value}
    (same : value.shape = other.shape) :
    (equals column value).erased = (equals column other).erased := by
  cases value <;> cases other <;> simp [Value.shape] at same <;> try rfl
  exact erased_member column same

theorem erased_differs (column : ColumnRef) {value other : Value}
    (same : value.shape = other.shape) :
    (differs column value).erased = (differs column other).erased := by
  cases value <;> cases other <;> simp [Value.shape] at same <;> rfl

end Condition

namespace Planned

theorem onColumn_alike {leaf other : Leaf} (alike : leaf.Alike other) {column : ColumnRef}
    {condition second : Condition} (built : onColumn leaf column = .ok condition)
    (builtOther : onColumn other column = .ok second) : condition.erased = second.erased := by
  have same := alike.shape
  unfold onColumn at built builtOther
  rw [← alike.operator] at builtOther
  cases operator : leaf.operator <;> simp only [operator] at built builtOther
  case equals | contains =>
    cases built
    cases builtOther
    exact Condition.erased_equals column same
  case notEquals =>
    cases built
    cases builtOther
    exact Condition.erased_differs column same
  case less | lessOrEqual | greater | greaterOrEqual =>
    cases built
    cases builtOther
    rfl
  case isIn =>
    cases value : leaf.value <;> simp only [value] at built <;> cases built
    cases otherValue : other.value <;> simp only [otherValue] at builtOther <;> cases builtOther
    rw [value, otherValue] at same
    exact Condition.erased_member column (Shape.items.inj same)
  case like =>
    cases value : leaf.value <;> simp only [value] at built <;> cases built
    cases otherValue : other.value <;> simp only [otherValue] at builtOther <;> cases builtOther
    rfl

variable {planned : Planned}

theorem aim_alike {leaf other : Leaf} (alike : leaf.Alike other) (graph : RelationGraph)
    (names : PropertyMap) (entityName : String) :
    leaf.aim graph names entityName = other.aim graph names entityName := by
  simp only [Leaf.aim, alike.operator, alike.path]

theorem buildLeaf_alike {leaf other : Leaf} (alike : leaf.Alike other) {subqueries : Nat}
    {condition second : Condition} (built : (planned.buildLeaf leaf subqueries).1 = .ok condition)
    (builtOther : (planned.buildLeaf other subqueries).1 = .ok second) :
    condition.erased = second.erased := by
  obtain ⟨target, aim, reached, aimed, compiled⟩ := buildLeaf_ok built
  obtain ⟨_, _, reachedOther, aimedOther, compiledOther⟩ := buildLeaf_ok builtOther
  rw [← alike.joinSegments, ← alike.group] at reachedOther
  cases reached.symm.trans reachedOther
  rw [← aim_alike alike] at aimedOther
  cases aimed.symm.trans aimedOther
  cases aim with
  | own column => exact onColumn_alike alike compiled compiledOther
  | member hop column =>
      cases compiled
      cases compiledOther
      simp only [Condition.erased, Condition.erased_equals _ alike.shape]

theorem buildLeaf_count {leaf other : Leaf} (alike : leaf.Alike other) (subqueries : Nat) :
    (planned.buildLeaf leaf subqueries).2 = (planned.buildLeaf other subqueries).2 := by
  unfold buildLeaf
  rw [alike.joinSegments, alike.group, alike.operator, alike.path]
  split
  · rfl
  · rename_i target _
    split
    · rw [buildContains, buildContains, alike.path]
      obtain ⟨relation, named⟩ := collection other.path
      simp only
      cases planned.graph.relation target.entity (planned.names.resolve relation) <;> rfl
    · rfl

mutual

/-- Alike trees become conditions that differ in values only, and number their subqueries in the
same way. -/
theorem build_alike : (node other : Node) → node.Alike other → ∀ {subqueries condition second},
    (planned.build node subqueries).1 = .ok condition →
      (planned.build other subqueries).1 = .ok second →
        condition.erased = second.erased ∧
          (planned.build node subqueries).2 = (planned.build other subqueries).2
  | .leaf _, .leaf _, alike, subqueries, _, _, built, builtOther =>
      ⟨buildLeaf_alike alike built builtOther, buildLeaf_count alike subqueries⟩
  | .composite combinator first rest, .composite _ other others, ⟨rfl, alike, alikeRest⟩,
      subqueries, condition, second, built, builtOther => by
      obtain ⟨head, parts, builtFirst, builtRest, rfl⟩ :=
        (build_composite_ok planned combinator first rest subqueries condition).mp built
      obtain ⟨otherHead, otherParts, builtSecond, builtOthers, rfl⟩ :=
        (build_composite_ok planned combinator other others subqueries second).mp builtOther
      obtain ⟨sameHead, sameCount⟩ := build_alike first other alike builtFirst builtSecond
      rw [build_composite_count planned combinator rest builtFirst,
        build_composite_count planned combinator others builtSecond]
      rw [← sameCount] at builtOthers ⊢
      obtain ⟨sameParts, sameLast⟩ := buildGroups_alike rest others alikeRest builtRest builtOthers
      refine ⟨Condition.erased_combine ?_, sameLast⟩
      rw [Condition.erasedAll, Condition.erasedAll, Condition.erased, Condition.erased, sameHead,
        sameParts]

theorem buildGroups_alike : (nodes others : List Node) → Node.AllAlike nodes others →
    ∀ {subqueries conditions seconds}, (planned.buildGroups nodes subqueries).1 = .ok conditions →
      (planned.buildGroups others subqueries).1 = .ok seconds →
        Condition.erasedAll conditions = Condition.erasedAll seconds ∧
          (planned.buildGroups nodes subqueries).2 = (planned.buildGroups others subqueries).2
  | [], [], _, _, _, _, built, builtOther => by
      cases built
      cases builtOther
      exact ⟨rfl, rfl⟩
  | node :: rest, other :: others, ⟨alike, alikeRest⟩, subqueries, conditions, seconds, built,
      builtOther => by
      obtain ⟨head, parts, builtFirst, builtRest, rfl⟩ :=
        (buildGroups_cons_ok planned node rest subqueries conditions).mp built
      obtain ⟨otherHead, otherParts, builtSecond, builtOthers, rfl⟩ :=
        (buildGroups_cons_ok planned other others subqueries seconds).mp builtOther
      obtain ⟨sameHead, sameCount⟩ := build_alike node other alike builtFirst builtSecond
      rw [buildGroups_cons_count planned rest builtFirst,
        buildGroups_cons_count planned others builtSecond]
      rw [← sameCount] at builtOthers ⊢
      obtain ⟨sameParts, sameLast⟩ := buildGroups_alike rest others alikeRest builtRest builtOthers
      refine ⟨?_, sameLast⟩
      rw [Condition.erasedAll, Condition.erasedAll, Condition.erased, Condition.erased, sameHead,
        sameParts]

end

end Planned

/-! What is written. -/

namespace Sql

def Part.erased : Part → Part
  | .parameter _ => .parameter .null
  | valueless => valueless

theorem textFrom_erased (dialect : Dialect) (next : Nat) (parts : List Part) :
    textFrom dialect next (parts.map Part.erased) = textFrom dialect next parts := by
  induction parts generalizing next with
  | nil => rfl
  | cons part rest ih => cases part <;> simp [textFrom, Part.erased, ih]

theorem length_parameters_erased (parts : List Part) :
    (parameters (parts.map Part.erased)).length = (parameters parts).length := by
  induction parts with
  | nil => rfl
  | cons part rest ih => cases part <;> simp [Part.erased, ih]

theorem map_erased_separated (separator : Fragment) (pieces : List (List Part)) :
    (separated separator pieces).map Part.erased =
      separated separator (pieces.map (List.map Part.erased)) := by
  induction pieces using separated.induct with
  | case1 => rfl
  | case2 first => simp [separated]
  | case3 first next rest ih => simpa [separated, Part.erased] using ih

mutual

theorem map_erased_condition : (written : Condition) →
    (condition written.erased).map Part.erased = (condition written).map Part.erased
  | .literal _ | .isNull .. => rfl
  | .compare column comparison value => by simp [Condition.erased, condition, Part.erased]
  | .isIn column values => by
      simp [Condition.erased, condition, map_erased_separated, Part.erased, Function.comp_def]
  | .like column pattern => by simp [Condition.erased, condition, Part.erased]
  | .someRelated join inner => by
      simp [Condition.erased, condition, map_erased_condition inner]
  | .group inner => by simp [Condition.erased, condition, map_erased_condition inner]
  | .all [] | .any [] => rfl
  | .all (first :: rest) => by
      simp [Condition.erased, Condition.erasedAll, condition, map_erased_condition first,
        map_erased_conditionsAfter .and rest]
  | .any (first :: rest) => by
      simp [Condition.erased, Condition.erasedAll, condition, map_erased_condition first,
        map_erased_conditionsAfter .or rest]

theorem map_erased_conditionsAfter (connective : Fragment) : (parts : List Condition) →
    (conditionsAfter connective (Condition.erasedAll parts)).map Part.erased =
      (conditionsAfter connective parts).map Part.erased
  | [] => rfl
  | part :: rest => by
      simp [Condition.erasedAll, conditionsAfter, map_erased_condition part,
        map_erased_conditionsAfter connective rest]

end

theorem textFrom_congr (dialect : Dialect) (next : Nat) {parts others : List Part}
    (same : parts.map Part.erased = others.map Part.erased) :
    textFrom dialect next parts = textFrom dialect next others := by
  rw [← textFrom_erased, same, textFrom_erased]

theorem length_parameters_congr {parts others : List Part}
    (same : parts.map Part.erased = others.map Part.erased) :
    (parameters parts).length = (parameters others).length := by
  rw [← length_parameters_erased, same, length_parameters_erased]

end Sql

namespace QueryPlan

structure SameButValues (plan other : QueryPlan) : Prop where
  entity : plan.entity = other.entity
  table : plan.table = other.table
  binding : plan.binding = other.binding
  joins : plan.joins = other.joins
  condition : plan.condition.map Condition.erased = other.condition.map Condition.erased
  orderBy : plan.orderBy = other.orderBy
  distinct : plan.distinct = other.distinct
  dialect : plan.dialect = other.dialect
  sql : ∀ dialect, plan.sql dialect = other.sql dialect
  parameters : plan.parameters.length = other.parameters.length

theorem map_erased_parts {plan other : QueryPlan} {condition : Option Condition}
    (made : other = { plan with condition := condition })
    (same : plan.condition.map Condition.erased = condition.map Condition.erased) :
    plan.parts.map Sql.Part.erased = other.parts.map Sql.Part.erased := by
  subst made
  cases held : plan.condition <;> cases condition <;> simp only [held, Option.map_none,
    Option.map_some, reduceCtorEq, Option.some.injEq] at same
  · simp [parts, held]
  · rename_i first second
    have written : (Sql.condition first).map Sql.Part.erased =
        (Sql.condition second).map Sql.Part.erased := by
      rw [← Sql.map_erased_condition, same, Sql.map_erased_condition]
    simp [parts, held, written]

theorem sameButValues_of_condition {plan other : QueryPlan} {condition : Option Condition}
    (made : other = { plan with condition := condition })
    (same : plan.condition.map Condition.erased = condition.map Condition.erased) :
    plan.SameButValues other := by
  have parts := map_erased_parts made same
  subst made
  refine ⟨rfl, rfl, rfl, rfl, same, rfl, rfl, rfl, ?_, Sql.length_parameters_congr parts⟩
  intro dialect
  rw [sql, sql, Sql.text, Sql.text, Sql.textFrom_congr dialect 1 parts]

end QueryPlan

namespace Assembler

variable {assembler : Assembler} {rootName : String} {request : Request} {nodes others : List Node}

theorem tree_alike : {nodes others : List Node} → Node.AllAlike nodes others →
    Option.Rel Node.Alike (tree nodes) (tree others)
  | [], [], _ => .none
  | [_], [_], ⟨alike, _⟩ => .some alike
  | _ :: _ :: _, _ :: _ :: _, ⟨alike, alikeRest⟩ => .some ⟨rfl, alike, alikeRest⟩

theorem joinsAndCondition_alike {root : Entity} {names : PropertyMap} {joined second : JoinPlan}
    {condition other : Option Condition} (alike : Node.AllAlike nodes others)
    (built : assembler.joinsAndCondition root names (tree nodes) = .ok (joined, condition))
    (builtOther : assembler.joinsAndCondition root names (tree others) = .ok (second, other)) :
    joined = second ∧ condition.map Condition.erased = other.map Condition.erased := by
  obtain ⟨planned, made⟩ := joinsAndCondition_ok built
  obtain ⟨plannedOther, madeOther⟩ := joinsAndCondition_ok builtOther
  rw [← JoinPlan.planLeaves_alike (Node.leavesOfAll_alike nodes others alike)] at plannedOther
  cases planned.symm.trans plannedOther
  refine ⟨rfl, ?_⟩
  cases tied : tree nodes with
  | none =>
      cases tiedOther : tree others with
      | none =>
          rw [tied] at made
          rw [tiedOther] at madeOther
          rw [made, madeOther]
      | some node =>
          have related := tree_alike alike
          rw [tied, tiedOther] at related
          cases related
  | some node =>
      have related := tree_alike alike
      rw [tied] at made related
      cases tiedOther : tree others with
      | none =>
          rw [tiedOther] at related
          cases related
      | some otherNode =>
          rw [tiedOther] at madeOther related
          cases related with
          | some alikeNodes =>
              obtain ⟨compiled, rfl, compiles⟩ := made
              obtain ⟨compiledOther, rfl, compilesOther⟩ := madeOther
              exact congrArg some
                (Planned.build_alike node otherNode alikeNodes compiles compilesOther).1

/-- Values of the same shapes give the same statement, whatever they are. -/
theorem same_text_of_alike (assembler : Assembler) (rootName : String) (request : Request)
    {filters : List RawFilter} (alike : RawFilter.AllAlike request.filters filters)
    {plan other : QueryPlan} (assembled : assembler.assemble rootName request = .ok plan)
    (assembledOther : assembler.assemble rootName (request.withFilters filters) = .ok other) :
    plan.SameButValues other := by
  obtain ⟨nodes, root, joined, condition, orderBy, read, rooted, compiled, ordered, rfl⟩ :=
    exists_of_assemble assembled
  obtain ⟨others, _, second, otherCondition, _, readOther, rootedOther, compiledOther, orderedOther,
    made⟩ := exists_of_assemble assembledOther
  cases rooted.symm.trans rootedOther
  cases ordered.symm.trans orderedOther
  obtain ⟨rfl, same⟩ :=
    joinsAndCondition_alike (Node.ofRawAll_alike request.filters filters alike read
      readOther) compiled compiledOther
  exact QueryPlan.sameButValues_of_condition made same

end Assembler

/-- The same conditions with other values; the first one becomes a date. -/
def Shelter.otherValues : List RawFilter :=
  [asks "toys.name" "=" "2020-02-29",
    .composite "or" [.leaf "name" "!=" .null none,
      .leaf "id" "in" (.list [.text "x", .truth true]) none, .leaf "name" "in" (.list []) none,
      .leaf "keeper" "contains" (.integer 7) none]]

theorem Assembler.same_text_of_many :
    ∃ plan other, Shelter.assembler.assemble "Pet" Shelter.manyValues = .ok plan ∧
      Shelter.assembler.assemble "Pet"
        (Shelter.manyValues.withFilters Shelter.otherValues) = .ok other ∧
        plan.SameButValues other := by
  have alike : RawFilter.AllAlike Shelter.manyValues.filters Shelter.otherValues :=
    ⟨⟨rfl, rfl, rfl, rfl⟩, ⟨rfl, ⟨rfl, rfl, rfl, rfl⟩, ⟨rfl, rfl, rfl, rfl⟩, ⟨rfl, rfl, rfl, rfl⟩,
      ⟨rfl, rfl, rfl, rfl⟩, trivial⟩, trivial⟩
  obtain ⟨plan, assembled⟩ : ∃ plan,
      Shelter.assembler.assemble "Pet" Shelter.manyValues = .ok plan := ⟨_, rfl⟩
  obtain ⟨other, assembledOther⟩ : ∃ other, Shelter.assembler.assemble "Pet"
      (Shelter.manyValues.withFilters Shelter.otherValues) = .ok other := ⟨_, rfl⟩
  exact ⟨plan, other, assembled, assembledOther,
    same_text_of_alike Shelter.assembler "Pet" Shelter.manyValues alike assembled assembledOther⟩

end FilterQuery
