import FilterQuery.Proofs.Faithfulness
import FilterQuery.Proofs.SqlReading

/-!
The and/or structure of a filter tree in SQL. Main statements: a compiled condition is well-formed;
and its SQL, read with the precedence of the language, is true together with the condition and with
the tree, whatever the truth of the single conditions.
-/

namespace FilterQuery

theorem Hop.keys_join_ne_nil {graph : RelationGraph} {entityName relation : String} {hop : Hop}
    (leads : graph.hop entityName relation = .ok hop) (parent binding : String) :
    (hop.join parent binding).keys ≠ [] ∧
      ∀ link ∈ (hop.join parent binding).link, link.keys ≠ [] := by
  obtain ⟨_, _, _, _, _, made⟩ := RelationGraph.hop_ok leads
  obtain ⟨some_, linked⟩ := columns_ne_nil made
  refine ⟨by simpa [join, qualified] using some_, ?_⟩
  intro link held
  obtain ⟨through, found, rfl⟩ := Option.map_eq_some_iff.mp held
  simpa [qualified] using linked through found

namespace Condition

def isAtomic : Condition → Bool
  | .group _ | .all _ | .any _ => false
  | _ => true

theorem formula_of_atomic {condition : Condition} (atomic : condition.isAtomic) :
    condition.formula = .atom condition := by
  cases condition <;> first | rfl | cases atomic

theorem member_atomic (column : ColumnRef) (values : List Value) :
    (member column values).isAtomic ∧ (member column values).WellFormed := by
  cases values <;> simp [member, isAtomic, WellFormed]

theorem equals_atomic (column : ColumnRef) (value : Value) :
    (equals column value).isAtomic ∧ (equals column value).WellFormed := by
  cases value with
  | list values => exact member_atomic column values
  | _ => simp [equals, isAtomic, WellFormed]

theorem differs_atomic (column : ColumnRef) (value : Value) :
    (differs column value).isAtomic ∧ (differs column value).WellFormed := by
  cases value <;> simp [differs, isAtomic, WellFormed]

theorem onColumn_atomic {leaf : Leaf} {column : ColumnRef} {condition : Condition}
    (built : Planned.onColumn leaf column = .ok condition) :
    condition.isAtomic ∧ condition.WellFormed := by
  cases Planned.onColumn_made built with
  | equality => exact equals_atomic column leaf.value
  | difference => exact differs_atomic column leaf.value
  | membership => exact member_atomic column _
  | order | pattern => simp [isAtomic, WellFormed]

theorem wellFormed_group {inner : Condition} :
    (Condition.group inner).WellFormed ↔ inner.WellFormed := by
  rw [WellFormed]

theorem wellFormed_combine {combinator : Combinator} {parts : List Condition} :
    (Planned.combine combinator parts).WellFormed ↔ parts ≠ [] ∧ AllGroups parts := by
  cases combinator <;> simp [Planned.combine, WellFormed]

/-- A condition says of its atoms what its SQL says of the clauses that they become. -/
abbrev ReadAs (condition : Condition) (parsed : Formula Clause) : Prop :=
  condition.formula.Agrees (fun atom clause => atom.reading = .atom clause) parsed

mutual

theorem readAs_reading : (condition : Condition) → condition.ReadAs condition.reading
  | .literal _ | .compare .. | .isNull .. | .isIn .. | .like .. | .someRelated .. => by
      rw [ReadAs, formula_of_atomic rfl, reading]
      exact .ofAtom (by rw [reading])
  | .group inner => by
      rw [ReadAs, formula, reading]
      exact readAs_reading inner
  | .all parts => by
      rw [ReadAs, formula, reading]
      exact .chain (readAs_readings parts) .and
  | .any parts => by
      rw [ReadAs, formula, reading]
      exact .chain (readAs_readings parts) .or

theorem readAs_readings : (parts : List Condition) →
    List.Forall₂ (Formula.Agrees fun atom clause => atom.reading = .atom clause) (formulas parts)
      (readings parts)
  | [] => .nil
  | part :: rest => .cons (readAs_reading part) (readAs_readings rest)

end

end Condition

namespace Planned

variable {planned : Planned}

theorem buildLeaf_atomic {leaf : Leaf} {subqueries : Nat} {condition : Condition}
    (built : (planned.buildLeaf leaf subqueries).1 = .ok condition) :
    condition.isAtomic ∧ condition.WellFormed := by
  obtain ⟨target, aim, _, aimed, compiled⟩ := buildLeaf_ok built
  cases aim with
  | own column => exact Condition.onColumn_atomic compiled
  | member hop column =>
      obtain ⟨_, _, leads⟩ := Leaf.aim_member aimed
      obtain ⟨keyed, linked⟩ := Hop.keys_join_ne_nil leads _ _
      cases compiled
      exact ⟨rfl, keyed, linked, (Condition.equals_atomic _ _).2⟩

mutual

theorem wellFormed_build : (node : Node) → ∀ {subqueries condition},
    (planned.build node subqueries).1 = .ok condition → condition.WellFormed
  | .leaf _, _, _, built => (buildLeaf_atomic built).2
  | .composite combinator first rest, subqueries, condition, built => by
      obtain ⟨head, others, builtFirst, builtRest, rfl⟩ :=
        (build_composite_ok planned combinator first rest subqueries condition).mp built
      exact Condition.wellFormed_combine.mpr ⟨List.cons_ne_nil _ _,
        ⟨rfl, Condition.wellFormed_group.mpr (wellFormed_build first builtFirst)⟩,
        allGroups_build rest builtRest⟩

theorem allGroups_build : (nodes : List Node) → ∀ {subqueries conditions},
    (planned.buildGroups nodes subqueries).1 = .ok conditions → Condition.AllGroups conditions
  | [], _, _, built => by
      cases built
      trivial
  | node :: rest, subqueries, conditions, built => by
      obtain ⟨head, others, builtFirst, builtRest, rfl⟩ :=
        (buildGroups_cons_ok planned node rest subqueries conditions).mp built
      exact ⟨⟨rfl, Condition.wellFormed_group.mpr (wellFormed_build node builtFirst)⟩,
        allGroups_build rest builtRest⟩

end

def Becomes (planned : Planned) (leaf : Leaf) (condition : Condition) : Prop :=
  ∃ subqueries, (planned.buildLeaf leaf subqueries).1 = .ok condition

mutual

theorem agrees_build : (node : Node) → ∀ {subqueries condition},
    (planned.build node subqueries).1 = .ok condition →
      node.formula.Agrees planned.Becomes condition.formula
  | .leaf leaf, subqueries, condition, built => by
      rw [Node.formula, Condition.formula_of_atomic (buildLeaf_atomic built).1]
      exact .ofAtom ⟨subqueries, built⟩
  | .composite combinator first rest, subqueries, condition, built => by
      obtain ⟨head, others, builtFirst, builtRest, rfl⟩ :=
        (build_composite_ok planned combinator first rest subqueries condition).mp built
      rw [Node.formula, Condition.formula_combine, List.map_cons, Condition.formula]
      exact .combine
        (.cons (agrees_build first builtFirst) (agrees_buildGroups rest builtRest)) combinator

theorem agrees_buildGroups : (nodes : List Node) → ∀ {subqueries conditions},
    (planned.buildGroups nodes subqueries).1 = .ok conditions →
      List.Forall₂ (Formula.Agrees planned.Becomes) (Node.formulas nodes)
        (conditions.map Condition.formula)
  | [], _, _, built => by
      cases built
      exact .nil
  | node :: rest, subqueries, conditions, built => by
      obtain ⟨head, others, builtFirst, builtRest, rfl⟩ :=
        (buildGroups_cons_ok planned node rest subqueries conditions).mp built
      rw [Node.formulas, List.map_cons, Condition.formula]
      exact .cons (agrees_build node builtFirst) (agrees_buildGroups rest builtRest)

end

/-- SQL keeps the structure of a tree: the leaves of the tree, the atoms of the condition and the
clauses of the SQL are the same in number and order, and tree, condition and SQL are true together.
What a subquery asks of its rows is the conjunction of its correlation, which is never empty, with
the whole condition. -/
structure Renders (planned : Planned) (node : Node) (condition : Condition)
    (parsed : Formula Clause) : Prop where
  wellFormed : condition.WellFormed
  leaves : List.Forall₂ planned.Becomes node.leaves condition.formula.atoms
  clauses : List.Forall₂ (fun atom clause => atom.reading = .atom clause) condition.formula.atoms
    parsed.atoms
  truth : ∀ assigned, parsed.value assigned 0 = condition.formula.value assigned 0 ∧
    condition.formula.value assigned 0 = node.formula.value assigned 0
  correlated : ∀ {tables keys asked}, .search tables keys asked ∈ parsed.atoms →
    ∃ join inner, .someRelated join inner ∈ condition.formula.atoms ∧ (Sql.related join).2 ≠ [] ∧
      asked = .all ((Sql.related join).2.map Sql.equal ++ [inner.reading])

/-- Whatever a tree is compiled against, the SQL of its condition can be read and keeps the
structure of the tree. -/
theorem read_build {node : Node} {subqueries : Nat} {condition : Condition}
    (built : (planned.build node subqueries).1 = .ok condition) :
    ∃ parsed, Sql.read (Sql.condition condition) = some parsed ∧
      planned.Renders node condition parsed := by
  have wellFormed := wellFormed_build node built
  have fromTree := agrees_build node built
  have toSql := condition.readAs_reading
  refine ⟨condition.reading, Sql.read_condition wellFormed, wellFormed, ?_, toSql.atoms, ?_, ?_⟩
  · rw [← Node.atoms_formula]
    exact fromTree.atoms
  · intro assigned
    exact ⟨(toSql.value assigned 0).symm, (fromTree.value assigned 0).symm⟩
  · intro tables keys asked held
    obtain ⟨atom, inCondition, asRead⟩ := toSql.exists_of_mem held
    obtain ⟨leaf, _, subqueries, becomes⟩ := fromTree.exists_of_mem inCondition
    obtain ⟨atomic, sound⟩ := buildLeaf_atomic becomes
    cases atom with
    | someRelated join inner =>
        rw [Condition.reading] at asRead
        cases asRead
        exact ⟨join, inner, inCondition, sound.correlated, rfl⟩
    | group | all | any => cases atomic
    | literal | compare | isNull | isIn | like =>
        rw [Condition.reading] at asRead
        cases asRead

end Planned

namespace Shelter

def planned : Planned := ⟨schema, .empty, .new (.new "Pet" "pets") .conditionGroup⟩

def ownLeaf (field : String) (operator : Operator) (value : String) : Node :=
  .leaf ⟨⟨[], field⟩, operator, .text value, defaultGroup⟩

/-- A disjunction with a conjunction in it, which joins a search among keepers with a disjunction of
its own. -/
def mixed : Node :=
  .composite .or (ownLeaf "name" .equals "Jinx")
    [.composite .and (ownLeaf "keeper" .contains "7")
      [.composite .or (ownLeaf "name" .like "K%") []]]

end Shelter

theorem Planned.read_build_mixed :
    ∃ condition parsed, (Shelter.planned.build Shelter.mixed 0).1 = .ok condition ∧
      Sql.read (Sql.condition condition) = some parsed ∧
      ∀ assigned, parsed.value assigned 0 =
        .any [assigned 0, .all [assigned 1, .any [assigned 2]]] := by
  obtain ⟨condition, built⟩ : ∃ condition,
      (Shelter.planned.build Shelter.mixed 0).1 = .ok condition := ⟨_, rfl⟩
  obtain ⟨parsed, read, renders⟩ := read_build built
  refine ⟨condition, parsed, built, read, fun assigned => ?_⟩
  obtain ⟨sameSql, sameTree⟩ := renders.truth assigned
  exact sameSql.trans sameTree

end FilterQuery
