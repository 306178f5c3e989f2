import FilterQuery.Proofs.Disjunction
import FilterQuery.Proofs.Scoping

/-!
Two ways to ask for a related row with a value: `=` joins the table at the end of the path, and
`contains` joins the tables before it and searches that one. Main statement: the two can be
assembled alike and select the same root rows.
-/

namespace FilterQuery

/-- A path of relations leads to an entity, one more relation from there to another one, and the
attribute is a column of that one. -/
structure RelationGraph.Ends (graph : RelationGraph) (root : Entity) (path : List String)
    (relation attributeName : String) (parent : Entity) (hop : Hop) (column : String) : Prop where
  led : graph.lead root path = .ok parent
  leads : graph.hop parent.name relation = .ok hop
  named : graph.column hop.related.name attributeName = .ok column

namespace Leaf

variable {graph : RelationGraph} {names : PropertyMap} {root : Entity} {leaf : Leaf}
  {shorter : List String} {last : String}

def Ends (graph : RelationGraph) (names : PropertyMap) (root : Entity) (shorter : List String)
    (last : String) (leaf : Leaf) : Entity → Hop → String → Prop :=
  graph.Ends root (shorter.map names.resolve) (names.resolve last)
    (names.resolve leaf.path.attributeName)

theorem trail_of_equals (longer : leaf.path.relations = shorter ++ [last])
    (equality : leaf.operator = .equals) :
    leaf.trail names = shorter.map names.resolve ++ [names.resolve last] := by
  have single : leaf.operator ≠ .contains := by simp [equality]
  rw [trail, joinSegments_of_single single, longer, List.map_append, List.map_singleton]

theorem trail_of_contains (longer : leaf.path.relations = shorter ++ [last])
    (searches : leaf.operator = .contains) : leaf.trail names = shorter.map names.resolve := by
  simp [trail, joinSegments, searches, longer]

theorem aim_of_equals (equality : leaf.operator = .equals) (entityName : String) :
    leaf.aim graph names entityName =
      (graph.column entityName (names.resolve leaf.path.attributeName)).map .own := by
  simp [aim, equality]

theorem aim_of_contains (longer : leaf.path.relations = shorter ++ [last])
    (searches : leaf.operator = .contains) (entityName : String) :
    leaf.aim graph names entityName = (do
      let hop ← graph.hop entityName (names.resolve last)
      (graph.column hop.related.name (names.resolve leaf.path.attributeName)).map
        (.member hop)) := by
  simp [aim, searches, Planned.collection, longer]

theorem equals_aimed_iff (longer : leaf.path.relations = shorter ++ [last])
    (equality : leaf.operator = .equals) {entity : Entity} {aim : Aim} :
    graph.lead root (leaf.trail names) = .ok entity ∧ leaf.aim graph names entity.name = .ok aim ↔
      ∃ parent hop column, leaf.Ends graph names root shorter last parent hop column ∧
        entity = hop.related ∧ aim = .own column := by
  rw [trail_of_equals longer equality, aim_of_equals equality, RelationGraph.lead_concat]
  constructor
  · rintro ⟨led, aimed⟩
    obtain ⟨parent, parentLed, led⟩ := bind_ok_iff.mp led
    obtain ⟨hop, leads, rfl⟩ := map_ok_iff.mp led
    obtain ⟨column, named, rfl⟩ := map_ok_iff.mp aimed
    exact ⟨parent, hop, column, ⟨parentLed, leads, named⟩, rfl, rfl⟩
  · rintro ⟨parent, hop, column, ends, rfl, rfl⟩
    exact ⟨bind_ok_iff.mpr ⟨parent, ends.led, map_ok_iff.mpr ⟨hop, ends.leads, rfl⟩⟩,
      map_ok_iff.mpr ⟨column, ends.named, rfl⟩⟩

theorem contains_aimed_iff (longer : leaf.path.relations = shorter ++ [last])
    (searches : leaf.operator = .contains) {entity : Entity} {aim : Aim} :
    graph.lead root (leaf.trail names) = .ok entity ∧ leaf.aim graph names entity.name = .ok aim ↔
      ∃ parent hop column, leaf.Ends graph names root shorter last parent hop column ∧
        entity = parent ∧ aim = .member hop column := by
  rw [trail_of_contains longer searches, aim_of_contains longer searches]
  constructor
  · rintro ⟨led, aimed⟩
    obtain ⟨hop, leads, aimed⟩ := bind_ok_iff.mp aimed
    obtain ⟨column, named, rfl⟩ := map_ok_iff.mp aimed
    exact ⟨entity, hop, column, ⟨led, leads, named⟩, rfl, rfl⟩
  · rintro ⟨parent, hop, column, ends, rfl, rfl⟩
    exact ⟨ends.led, bind_ok_iff.mpr ⟨hop, ends.leads, map_ok_iff.mpr ⟨column, ends.named, rfl⟩⟩⟩

theorem compiles_equals_iff (longer : leaf.path.relations = shorter ++ [last])
    (equality : leaf.operator = .equals) :
    leaf.Compiles graph names root ↔
      ∃ parent hop column, leaf.Ends graph names root shorter last parent hop column := by
  constructor
  · rintro ⟨entity, led, aim, aimed, _⟩
    obtain ⟨parent, hop, column, ends, _⟩ := (equals_aimed_iff longer equality).mp ⟨led, aimed⟩
    exact ⟨parent, hop, column, ends⟩
  · rintro ⟨parent, hop, column, ends⟩
    obtain ⟨led, aimed⟩ :=
      (equals_aimed_iff longer equality).mpr ⟨parent, hop, column, ends, rfl, rfl⟩
    exact ⟨hop.related, led, .own column, aimed, "", 0, .equals ⟨"", column⟩ leaf.value,
      by simp [Aim.condition, Planned.onColumn, equality]⟩

theorem compiles_contains_iff (longer : leaf.path.relations = shorter ++ [last])
    (searches : leaf.operator = .contains) :
    leaf.Compiles graph names root ↔
      ∃ parent hop column, leaf.Ends graph names root shorter last parent hop column := by
  constructor
  · rintro ⟨entity, led, aim, aimed, _⟩
    obtain ⟨parent, hop, column, ends, _⟩ := (contains_aimed_iff longer searches).mp ⟨led, aimed⟩
    exact ⟨parent, hop, column, ends⟩
  · rintro ⟨parent, hop, column, ends⟩
    obtain ⟨led, aimed⟩ :=
      (contains_aimed_iff longer searches).mpr ⟨parent, hop, column, ends, rfl, rfl⟩
    exact ⟨parent, led, .member hop column, aimed, "", 0, _, rfl⟩

end Leaf

namespace Reading

variable {Content : Type} [DecidableEq Content] {reading : Reading Content} {row : Row Content}
  {assignment : Assignment Content} {leaf : Leaf} {shorter : List String} {last : String}

theorem asks_equals_iff (longer : leaf.path.relations = shorter ++ [last])
    (equality : leaf.operator = .equals) :
    reading.Asks assignment row leaf ↔
      ∃ parent hop column,
        leaf.Ends reading.graph reading.names reading.root shorter last parent hop column ∧
          reading.store.same ((assignment.related ⟨reading.scope.key leaf.group,
            shorter.map reading.names.resolve ++ [reading.names.resolve last]⟩).read column)
              leaf.value = .yes := by
  constructor
  · rintro ⟨entity, aim, led, aimed, holds⟩
    obtain ⟨parent, hop, column, ends, rfl, rfl⟩ :=
      (Leaf.equals_aimed_iff longer equality).mp ⟨led, aimed⟩
    rw [Leaf.trail_of_equals longer equality, Assignment.rowAt_concat, Leaf.HoldsOf,
      equality] at holds
    exact ⟨parent, hop, column, ends, holds⟩
  · rintro ⟨parent, hop, column, ends, same⟩
    obtain ⟨led, aimed⟩ :=
      (Leaf.equals_aimed_iff longer equality).mpr ⟨parent, hop, column, ends, rfl, rfl⟩
    refine ⟨hop.related, .own column, led, aimed, ?_⟩
    rw [Leaf.trail_of_equals longer equality, Assignment.rowAt_concat, Leaf.HoldsOf, equality]
    exact same

theorem asks_contains_iff (longer : leaf.path.relations = shorter ++ [last])
    (searches : leaf.operator = .contains) :
    reading.Asks assignment row leaf ↔
      ∃ parent hop column,
        leaf.Ends reading.graph reading.names reading.root shorter last parent hop column ∧
          ∃ link related, hop.Leads reading.database (assignment.rowAt row
              (reading.scope.key leaf.group) (shorter.map reading.names.resolve)) link related ∧
            reading.store.same (related.read column) leaf.value = .yes := by
  constructor
  · rintro ⟨entity, aim, led, aimed, holds⟩
    obtain ⟨parent, hop, column, ends, rfl, rfl⟩ :=
      (Leaf.contains_aimed_iff longer searches).mp ⟨led, aimed⟩
    rw [Leaf.trail_of_contains longer searches] at holds
    exact ⟨entity, hop, column, ends, holds⟩
  · rintro ⟨parent, hop, column, ends, holds⟩
    obtain ⟨led, aimed⟩ :=
      (Leaf.contains_aimed_iff longer searches).mpr ⟨parent, hop, column, ends, rfl, rfl⟩
    refine ⟨parent, .member hop column, led, aimed, ?_⟩
    rw [Leaf.trail_of_contains longer searches]
    exact holds

theorem fits_longer {first second : Leaf} {relation : String} (group : first.group = second.group)
    (trail : first.trail reading.names = second.trail reading.names ++ [relation]) :
    reading.Fits [first] assignment row ↔
      reading.Fits [second] assignment row ∧
        assignment.Links reading.graph reading.database reading.root row
          (reading.scope.key second.group) (second.trail reading.names) relation := by
  simp only [Fits, JoinPlan.Occurs, List.mem_singleton, exists_eq_left, group, trail,
    List.prefix_concat_iff]
  constructor
  · intro fits
    exact ⟨fun within path last along => fits within path last ⟨along.1, Or.inr along.2⟩,
      fits _ _ _ ⟨rfl, Or.inl rfl⟩⟩
  · rintro ⟨fits, links⟩ within path last ⟨rfl, whole | along⟩
    · obtain ⟨rfl, sameLast⟩ := List.append_inj' whole rfl
      cases List.singleton_inj.mp sameLast
      exact links
    · exact fits _ path last ⟨rfl, along⟩

omit [DecidableEq Content] in
theorem sameOn_assign (assignment : Assignment Content) (link related : Row Content)
    (within : String) (relation : String) :
    reading.SameOn [leaf] assignment
      (assignment.assign ⟨within, leaf.trail reading.names ++ [relation]⟩ link related) := by
  rintro asked path last ⟨_, held, rfl, along⟩
  cases List.mem_singleton.mp held
  have different : (⟨reading.scope.key leaf.group, path ++ [last]⟩ : JoinKey) ≠
      ⟨within, leaf.trail reading.names ++ [relation]⟩ := by
    intro same
    have lengths := congrArg (fun key : JoinKey => key.path.length) same
    have short := along.length_le
    simp only [List.length_append, List.length_singleton] at lengths short
    omega
  rw [Assignment.related_assign_other _ _ _ different, Assignment.link_assign_other _ _ _ different]
  exact ⟨rfl, rfl⟩

theorem selects_equals_iff {joined searched : Leaf} (equality : joined.operator = .equals)
    (searches : searched.operator = .contains) (path : joined.path = searched.path)
    (value : joined.value = searched.value) (group : joined.group = searched.group)
    (longer : searched.path.relations = shorter ++ [last]) :
    reading.Selects [.leaf joined] row ↔ reading.Selects [.leaf searched] row := by
  have longerJoined : joined.path.relations = shorter ++ [last] := by rw [path, longer]
  have same : ∀ parent hop column,
      joined.Ends reading.graph reading.names reading.root shorter last parent hop column ↔
        searched.Ends reading.graph reading.names reading.root shorter last parent hop column := by
    intro parent hop column
    rw [Leaf.Ends, Leaf.Ends, path]
  have trail : searched.trail reading.names = shorter.map reading.names.resolve :=
    Leaf.trail_of_contains longer searches
  have trails : joined.trail reading.names =
      searched.trail reading.names ++ [reading.names.resolve last] := by
    rw [trail, Leaf.trail_of_equals longerJoined equality]
  simp only [selects_singleton, Node.leaves, Node.Holds, asks_equals_iff longerJoined equality,
    asks_contains_iff longer searches, same, group, value, ← trail, fits_longer group trails]
  refine and_congr_right fun _ => ?_
  constructor
  · rintro ⟨assignment, ⟨fits, _, _, led, leads, linked⟩, parent, hop, column, ends, holds⟩
    rw [trail] at led
    cases ends.led.symm.trans led
    cases ends.leads.symm.trans leads
    exact ⟨assignment, fits, _, _, column, ends, _, _, linked, holds⟩
  · rintro ⟨assignment, fits, parent, hop, column, ends, link, related, linked, holds⟩
    have led := ends.led
    rw [← trail] at led
    refine ⟨assignment.assign ⟨reading.scope.key searched.group,
        searched.trail reading.names ++ [reading.names.resolve last]⟩ link related,
      ⟨(sameOn_assign assignment link related _ _).fits fits, parent, hop, led, ends.leads, ?_⟩,
      parent, hop, column, ends, ?_⟩
    · rw [Assignment.rowAt_assign_other _ _ _ _ (Or.inr (by simp)), Assignment.link_assign,
        Assignment.related_assign]
      exact linked
    · rw [Assignment.related_assign]
      exact holds

end Reading

namespace Assembler

/-- For a value that `=` takes and a path with relations, it is all one whether `=` or `contains` is
asked: one can be assembled when the other can, and they select the same rows of every database. -/
theorem equals_iff_contains (assembler : Assembler) (rootName : String) (request : Request)
    (field : String) (json : Json) (group : Option String) {path : FieldPath} {value : Value}
    (parsed : FieldPath.parse field = .ok path) (related : path.relations ≠ [])
    (decoded : Value.ofJson json = .ok value)
    (accepted : Operator.equals.accepts value.coerce = true) :
    ((∃ plan, assembler.assemble rootName
        (request.withFilters [.leaf field "=" json group]) = .ok plan) ↔
      ∃ plan, assembler.assemble rootName
        (request.withFilters [.leaf field "contains" json group]) = .ok plan) ∧
    ∀ joined searched,
      assembler.assemble rootName (request.withFilters [.leaf field "=" json group]) = .ok joined →
      assembler.assemble rootName (request.withFilters [.leaf field "contains" json group]) =
        .ok searched →
      (∀ root, assembler.schema.entity rootName = .ok root → ¬ IsGenerated root.table) →
      ∀ {Content : Type} [DecidableEq Content] (store : Store Content) (database : Database Content)
        (row : Row Content), row ∈ joined.rows store database ↔
          row ∈ searched.rows store database := by
  obtain ⟨shorter, last, longer⟩ := (List.eq_nil_or_concat path.relations).resolve_left related
  rw [List.concat_eq_append] at longer
  let joins : Leaf := ⟨path, .equals, value.coerce, group.getD assembler.settings.defaultGroup⟩
  let searches : Leaf := { joins with operator := .contains }
  have readJoins : Node.ofRaw assembler.settings.defaultGroup (.leaf field "=" json group) =
      .ok (.leaf joins) :=
    Node.ofRaw_leaf_ok_iff.mpr ⟨joins, Node.leafOfRaw_ok_iff.mpr
      ⟨.equals, value, path, rfl, decoded, parsed, accepted, rfl⟩, rfl⟩
  have readSearches :
      Node.ofRaw assembler.settings.defaultGroup (.leaf field "contains" json group) =
      .ok (.leaf searches) :=
    Node.ofRaw_leaf_ok_iff.mpr ⟨searches, Node.leafOfRaw_ok_iff.mpr
      ⟨.contains, value, path, rfl, decoded, parsed, rfl, rfl⟩, rfl⟩
  constructor
  · have compiles (root : Entity) :
        joins.Compiles assembler.schema (assembler.effectiveNames request.names) root ↔
          searches.Compiles assembler.schema (assembler.effectiveNames request.names) root := by
      rw [Leaf.compiles_equals_iff longer rfl, Leaf.compiles_contains_iff longer rfl]
      exact Iff.rfl
    simp only [assemble_single_ok_iff, readJoins, readSearches, Except.ok.injEq, exists_and_left,
      exists_eq_left', Node.leaves, List.forall_mem_singleton, compiles]
  · intro joined searched assembledJoins assembledSearches plain Content _ store database row
    obtain ⟨_, root, _, _, rooted, _⟩ := assembled_of_assemble assembledJoins
    rw [mem_rows_single assembledJoins readJoins rooted (plain root rooted),
      mem_rows_single assembledSearches readSearches rooted (plain root rooted)]
    exact Reading.selects_equals_iff rfl rfl rfl rfl rfl longer

/-- Kaya is kept by Jasmine, through the link table: the query that joins her finds him, so the one
that searches for her does. -/
theorem kaya_by_either : ∃ joined searched,
    Shelter.assembler.assemble "Pet"
      (({} : Request).withFilters [Shelter.asks "keeper.name" "=" "Jasmine"]) = .ok joined ∧
    Shelter.assembler.assemble "Pet"
      (({} : Request).withFilters [Shelter.asks "keeper.name" "contains" "Jasmine"]) =
        .ok searched ∧
    Shelter.kaya ∈ searched.rows Shelter.texts Shelter.database := by
  have parsed : FieldPath.parse "keeper.name" = .ok ⟨["keeper"], "name"⟩ := rfl
  obtain ⟨alike, same⟩ := equals_iff_contains Shelter.assembler "Pet" {} "keeper.name"
    (.text "Jasmine") none parsed (by simp) rfl rfl
  obtain ⟨joined, assembledJoins, found⟩ : ∃ joined, Shelter.assembler.assemble "Pet"
      (({} : Request).withFilters [Shelter.asks "keeper.name" "=" "Jasmine"]) = .ok joined ∧
        Shelter.kaya ∈ joined.rows Shelter.texts Shelter.database := ⟨_, rfl, by decide +kernel⟩
  obtain ⟨searched, assembledSearches⟩ := alike.mp ⟨joined, assembledJoins⟩
  exact ⟨joined, searched, assembledJoins, assembledSearches,
    (same joined searched assembledJoins assembledSearches Shelter.plain _ _ _).mp found⟩

end Assembler

end FilterQuery
