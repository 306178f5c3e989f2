import FilterQuery.Proofs.Scoping

/-!
The names of one statement. The joins and the subqueries are named by their numbers, and the root
has the name of its table. Main statement: of all these names only the name of the root can stand
for two tables.
-/

namespace FilterQuery

namespace Condition

mutual

def searches : Condition → List Join
  | .literal _ | .compare .. | .isNull .. | .isIn .. | .like .. => []
  | .someRelated join inner => join :: searches inner
  | .group inner => searches inner
  | .all parts | .any parts => searchesOfAll parts

def searchesOfAll : List Condition → List Join
  | [] => []
  | part :: rest => searches part ++ searchesOfAll rest

end

theorem searches_equals (column : ColumnRef) (value : Value) :
    (equals column value).searches = [] := by
  cases value with
  | list values => cases values <;> rfl
  | _ => rfl

theorem searches_onColumn {leaf : Leaf} {column : ColumnRef} {condition : Condition}
    (made : Planned.OnColumn leaf column condition) : condition.searches = [] := by
  cases made with
  | equality => exact searches_equals column leaf.value
  | difference => cases leaf.value <;> rfl
  | order | pattern => rfl
  | @membership values => cases values <;> rfl

theorem searches_combine (combinator : Combinator) (parts : List Condition) :
    (Planned.combine combinator parts).searches = searchesOfAll parts := by
  cases combinator <;> rfl

end Condition

namespace QueryPlan

def searches (plan : QueryPlan) : List Join :=
  plan.condition.toList.flatMap (·.searches)

def givenNames (plan : QueryPlan) : List String :=
  plan.joins.flatMap Join.tableNames ++ plan.searches.flatMap Join.tableNames

/-- The names of all tables of a statement, those of its subqueries among them. -/
def allNames (plan : QueryPlan) : List String :=
  plan.binding :: plan.givenNames

end QueryPlan

/-- Subqueries that take the count of subqueries from one number to another. -/
def Join.Counted (start : Nat) (searches : List Join) (after : Nat) : Prop :=
  Numbered .searched start searches ∧ after = start + searches.length

namespace Join

variable {start middle after : Nat} {first second : List Join}

theorem counted_nil (start : Nat) : Counted start [] start :=
  ⟨trivial, rfl⟩

theorem counted_singleton {join : Join} (bears : join.Bears .searched (start + 1)) :
    Counted start [join] (start + 1) :=
  ⟨numbered_singleton.mpr bears, rfl⟩

theorem Counted.append (counted : Counted start first middle) (more : Counted middle second after) :
    Counted start (first ++ second) after := by
  obtain ⟨numbered, rfl⟩ := counted
  obtain ⟨moreNumbered, rfl⟩ := more
  exact ⟨numbered_append.mpr ⟨numbered, moreNumbered⟩, by rw [List.length_append, Nat.add_assoc]⟩

theorem names_nodup {joins searches : List Join} (joined : Numbered .joined start joins)
    (searched : Numbered .searched after searches) :
    (joins.flatMap tableNames ++ searches.flatMap tableNames).Nodup := by
  refine List.nodup_append.mpr ⟨joined.tableNames_nodup, searched.tableNames_nodup, ?_⟩
  rintro name held _ other rfl
  obtain ⟨_, _, _, _, joinedName⟩ := joined.mem_tableNames held
  obtain ⟨_, _, _, _, searchedName⟩ := searched.mem_tableNames other
  have uses :=
    congrArg TableName.use (TableName.text_injective (joinedName.symm.trans searchedName))
  cases uses

end Join

namespace Planned

variable {planned : Planned}

theorem searches_buildLeaf {leaf : Leaf} {subqueries : Nat} {condition : Condition}
    (built : (planned.buildLeaf leaf subqueries).1 = .ok condition) :
    Join.Counted subqueries condition.searches (planned.buildLeaf leaf subqueries).2 := by
  obtain ⟨target, aim, reached, aimed, compiled⟩ := buildLeaf_ok built
  cases aim with
  | own column =>
      have single := (Leaf.aim_own_ok aimed).1
      have count : (planned.buildLeaf leaf subqueries).2 = subqueries := by
        simp [buildLeaf, reached, single]
      rw [count, Condition.searches_onColumn (onColumn_made compiled)]
      exact Join.counted_nil subqueries
  | member hop column =>
      have searches := (Leaf.aim_member aimed).1
      obtain ⟨relation, _, declared, _⟩ := RelationGraph.hop_ok (Leaf.aim_member_column aimed).1
      have count : (planned.buildLeaf leaf subqueries).2 = subqueries + 1 := by
        simp [buildLeaf, reached, searches, buildContains, declared]
      cases compiled
      rw [count, Condition.searches, Condition.searches_equals, TableName.subqueryBinding_eq]
      exact Join.counted_singleton (hop.bears_join _ .searched _)

mutual

/-- The subqueries of a tree are numbered from left to right, on from those before it. -/
theorem searches_build : (node : Node) → ∀ {subqueries condition},
    (planned.build node subqueries).1 = .ok condition →
      Join.Counted subqueries condition.searches (planned.build node subqueries).2
  | .leaf _, _, _, built => searches_buildLeaf built
  | .composite combinator first rest, subqueries, condition, built => by
      obtain ⟨head, others, builtFirst, builtRest, rfl⟩ :=
        (build_composite_ok planned combinator first rest subqueries condition).mp built
      rw [build_composite_count planned combinator rest builtFirst, Condition.searches_combine,
        Condition.searchesOfAll, Condition.searches]
      exact (searches_build first builtFirst).append (searches_buildGroups rest builtRest)

theorem searches_buildGroups : (nodes : List Node) → ∀ {subqueries conditions},
    (planned.buildGroups nodes subqueries).1 = .ok conditions →
      Join.Counted subqueries (Condition.searchesOfAll conditions)
        (planned.buildGroups nodes subqueries).2
  | [], subqueries, _, built => by
      cases built
      exact Join.counted_nil subqueries
  | node :: rest, subqueries, conditions, built => by
      obtain ⟨head, others, builtFirst, builtRest, rfl⟩ :=
        (buildGroups_cons_ok planned node rest subqueries conditions).mp built
      rw [buildGroups_cons_count planned rest builtFirst, Condition.searchesOfAll,
        Condition.searches]
      exact (searches_build node builtFirst).append (searches_buildGroups rest builtRest)

end

end Planned

namespace Assembler

variable {assembler : Assembler} {request : Request} {nodes : List Node} {root : Entity}
  {joined : JoinPlan} {plan : QueryPlan}

theorem Assembled.joins_numbered (made : assembler.Assembled request nodes root joined plan) :
    Join.Numbered .joined 0 plan.joins := by
  rw [made.joins]
  exact made.covers.grown.numbered

theorem Assembled.searches_numbered (made : assembler.Assembled request nodes root joined plan) :
    Join.Numbered .searched 0 plan.searches := by
  have condition := made.condition
  unfold QueryPlan.searches
  cases tied : tree nodes with
  | none =>
      rw [tied] at condition
      rw [condition]
      exact trivial
  | some node =>
      rw [tied] at condition
      obtain ⟨compiled, same, built⟩ := condition
      rw [same, Option.toList_some, List.flatMap_singleton]
      exact (Planned.searches_build node built).1

/-- The joins and the subqueries of an assembled plan are counted, so no two of their tables share a
name. The root table keeps the name that the schema has for it, which may be one of theirs only if
it looks like one. -/
theorem names_of_assemble (assembler : Assembler) (rootName : String) (request : Request)
    {plan : QueryPlan} (assembled : assembler.assemble rootName request = .ok plan) :
    (∃ root, assembler.schema.entity rootName = .ok root ∧ plan.binding = root.table) ∧
      Join.Numbered .joined 0 plan.joins ∧ Join.Numbered .searched 0 plan.searches ∧
        plan.givenNames.Nodup ∧ (plan.allNames.Nodup ↔ plan.binding ∉ plan.givenNames) ∧
          (¬ IsGenerated plan.binding → plan.allNames.Nodup) := by
  obtain ⟨nodes, root, joined, _, rooted, made⟩ := assembled_of_assemble assembled
  have joins := made.joins_numbered
  have searches := made.searches_numbered
  have given : plan.givenNames.Nodup := Join.names_nodup joins searches
  have clash : plan.allNames.Nodup ↔ plan.binding ∉ plan.givenNames :=
    List.nodup_cons.trans (and_iff_left given)
  refine ⟨⟨root, rooted, made.binding⟩, joins, searches, given, clash, ?_⟩
  intro plain
  rw [clash, QueryPlan.givenNames, List.mem_append]
  rintro (inJoins | inSearches)
  · exact plain (joins.isGenerated inJoins)
  · exact plain (searches.isGenerated inSearches)

theorem labelled_names : ∃ plan, Shelter.assembler.assemble "Pet" Shelter.labelled = .ok plan ∧
    plan.givenNames = ["j1", "s1", "s2_link", "s2"] ∧ plan.allNames.Nodup := by
  obtain ⟨plan, assembled, pets, names⟩ : ∃ plan,
      Shelter.assembler.assemble "Pet" Shelter.labelled = .ok plan ∧ plan.binding = "pets" ∧
        plan.givenNames = ["j1", "s1", "s2_link", "s2"] := ⟨_, rfl, rfl, rfl⟩
  obtain ⟨_, _, _, _, _, apart⟩ :=
    names_of_assemble Shelter.assembler "Pet" Shelter.labelled assembled
  refine ⟨plan, assembled, names, apart ?_⟩
  rw [pets]
  exact not_isGenerated 'p' rfl (by decide) (by decide)

end Assembler

namespace Shelter

def schemaIn (table : String) : Schema :=
  .ofEntities [
    ((Entity.new "Pet" table).withAttribute "name").withRelation
      { name := "toys", kind := .oneToMany, related := "Toy", references := ["pet_id"] },
    (Entity.new "Toy" "toys").withAttribute "name"]

def databaseIn (table : String) : Database String := fun asked =>
  if asked = table then [kaya]
  else if asked = "toys" then [row [("id", "5"), ("name", "ball"), ("pet_id", "1")]]
  else []

end Shelter

namespace Assembler

/-- When the table of the pets is named as the first subquery is, the subquery compares the toys
with themselves, and Kaya is lost. -/
theorem kaya_captured : ∃ plan captured,
    (Assembler.mk (Shelter.schemaIn "pets") {}).assemble "Pet"
      { filters := [Shelter.asks "toys.name" "contains" "ball"] } = .ok plan ∧
    (Assembler.mk (Shelter.schemaIn "s1") {}).assemble "Pet"
      { filters := [Shelter.asks "toys.name" "contains" "ball"] } = .ok captured ∧
    captured.allNames = ["s1", "s1"] ∧ ¬ captured.allNames.Nodup ∧
    Shelter.kaya ∈ plan.rows Shelter.texts (Shelter.databaseIn "pets") ∧
      Shelter.kaya ∉ captured.rows Shelter.texts (Shelter.databaseIn "s1") :=
  ⟨_, _, rfl, rfl, rfl, by decide +kernel, by decide +kernel, by decide +kernel⟩

end Assembler

end FilterQuery
