import FilterQuery.JoinPlan
import FilterQuery.Proofs.Database

/-!
One step along a relation before its tables are given names: the tables to go through and the
columns that must be equal. A join is such a step with names. Main statements: resolving a join
finds a step and names its tables; both an inner join and a subquery bind exactly the rows that the
step leads to.
-/

namespace FilterQuery

structure HopLink where
  table : String
  /-- A column of the parent with a column of the link table. -/
  columns : List (String × String)

structure Hop where
  relation : String
  kind : RelationKind
  related : Entity
  link : Option HopLink
  /-- A column of the parent, or of the link table when there is one, with a column of the related
  table. -/
  columns : List (String × String)

namespace Hop

def of (relation : Relation) (parent related : Entity) : Except Fault Hop :=
  match relation.link with
  | some link =>
      .ok {
        relation := relation.name
        kind := relation.kind
        related := related
        link := some ⟨link.table,
          [(Join.firstOrKey relation.fields parent, link.sourceColumn)]⟩
        columns := [(link.targetColumn, Join.firstOrKey relation.references related)] }
  | none =>
      (Join.keyColumns relation parent related).map fun columns =>
        ⟨relation.name, relation.kind, related, none, columns⟩

theorem related_of {relation : Relation} {parent related : Entity} {hop : Hop}
    (made : of relation parent related = .ok hop) : hop.related = related := by
  unfold of at made
  split at made
  · cases made
    rfl
  · obtain ⟨_, _, rfl⟩ := map_ok_iff.mp made
    rfl

end Hop

def RelationGraph.hop (graph : RelationGraph) (entityName relationName : String) :
    Except Fault Hop := do
  let relation ← graph.relation entityName relationName
  let parent ← graph.entity entityName
  let related ← graph.entity relation.related
  Hop.of relation parent related

namespace Schema

theorem mem_of_entity {schema : Schema} {name : String} {entity : Entity}
    (found : schema.entity name = .ok entity) : entity ∈ schema.entities.contents := by
  unfold Schema.entity at found
  split at found
  · cases found
    exact Dictionary.mem_contents_of_find? ‹_›
  · cases found

theorem mem_of_relation {schema : Schema} {entityName name : String} {relation : Relation}
    (found : schema.relation entityName name = .ok relation) :
    ∃ entity, schema.entity entityName = .ok entity ∧ relation ∈ entity.relations.contents := by
  obtain ⟨entity, named, found⟩ := bind_ok_iff.mp found
  split at found
  · cases found
    exact ⟨entity, named, Dictionary.mem_contents_of_find? ‹_›⟩
  · cases found

end Schema

theorem RelationGraph.hop_ok {graph : RelationGraph} {entityName relationName : String} {hop : Hop}
    (leads : graph.hop entityName relationName = .ok hop) :
    ∃ relation parent, graph.relation entityName relationName = .ok relation ∧
      graph.entity entityName = .ok parent ∧ graph.entity relation.related = .ok hop.related ∧
      Hop.of relation parent hop.related = .ok hop := by
  simp only [RelationGraph.hop, bind_ok_iff] at leads
  obtain ⟨relation, declared, parent, named, related, found, made⟩ := leads
  rw [← Hop.related_of made] at found made
  exact ⟨relation, parent, declared, named, found, made⟩

namespace Hop

theorem orKey_ne_nil (columns : List String) (entity : Entity) :
    Join.orKey columns entity ≠ [] := by
  unfold Join.orKey
  cases columns <;> simp

theorem keyColumns_ne_nil {relation : Relation} {parent related : Entity}
    {columns : List (String × String)}
    (paired : Join.keyColumns relation parent related = .ok columns) : columns ≠ [] := by
  unfold Join.keyColumns at paired
  split at paired
  · cases paired
  simp only at paired
  split at paired
  · cases paired
    simp [List.zip_eq_nil_iff, orKey_ne_nil]
  · cases paired

/-- A step never leads from every row to every row: some columns must be equal. -/
theorem columns_ne_nil {relation : Relation} {parent related : Entity} {hop : Hop}
    (made : of relation parent related = .ok hop) :
    hop.columns ≠ [] ∧ ∀ link ∈ hop.link, link.columns ≠ [] := by
  unfold of at made
  split at made
  · cases made
    simp
  · obtain ⟨columns, paired, rfl⟩ := map_ok_iff.mp made
    simpa using keyColumns_ne_nil paired

def qualified (left right : String) (columns : List (String × String)) : List KeyPair :=
  columns.map fun pair => (⟨left, pair.1⟩, ⟨right, pair.2⟩)

def join (hop : Hop) (parent binding : String) : Join where
  relation := hop.relation
  kind := hop.kind
  entity := hop.related.name
  table := hop.related.table
  binding := binding
  link := hop.link.map fun link =>
    ⟨link.table, Join.linkBinding binding,
      qualified parent (Join.linkBinding binding) link.columns⟩
  keys :=
    qualified (if hop.link.isSome then Join.linkBinding binding else parent) binding hop.columns

theorem resolve_eq (graph : RelationGraph) (parent : Target) (relation : Relation)
    (binding : String) :
    Join.resolve graph parent relation binding =
      (do
        let parentEntity ← graph.entity parent.entity
        let related ← graph.entity relation.related
        let hop ← Hop.of relation parentEntity related
        .ok (hop.join parent.binding binding)) := by
  unfold Join.resolve Hop.of
  cases graph.entity parent.entity with
  | error fault => rfl
  | ok parentEntity =>
      cases graph.entity relation.related with
      | error fault => rfl
      | ok related =>
          cases linked : relation.link with
          | some link => rfl
          | none =>
              simp only [bind, Except.bind]
              cases Join.keyColumns relation parentEntity related <;> rfl

theorem resolve_of_relation {graph : RelationGraph} {parent : Target} {relationName : String}
    {relation : Relation} (declared : graph.relation parent.entity relationName = .ok relation)
    (binding : String) :
    Join.resolve graph parent relation binding =
      (graph.hop parent.entity relationName).map (·.join parent.binding binding) := by
  rw [resolve_eq, RelationGraph.hop, declared]
  simp only [bind, Except.bind]
  cases graph.entity parent.entity with
  | error fault => rfl
  | ok parentEntity =>
      cases graph.entity relation.related with
      | error fault => rfl
      | ok related => cases Hop.of relation parentEntity related <;> rfl

theorem hop_eq (graph : RelationGraph) (plan : JoinPlan) (current : Target)
    (relationName : String) :
    plan.hop graph current relationName =
      (graph.hop current.entity relationName).map (·.join current.binding plan.nextBinding) := by
  unfold JoinPlan.hop
  cases declared : graph.relation current.entity relationName with
  | error fault => simp [RelationGraph.hop, declared, bind, Except.bind, Except.map]
  | ok relation => exact resolve_of_relation declared _

theorem tableNames_join (hop : Hop) (parent binding : String) :
    (hop.join parent binding).tableNames =
      (if hop.link.isSome then [Join.linkBinding binding] else []) ++ [binding] := by
  cases linked : hop.link <;> simp [Join.tableNames, join, linked]

end Hop

variable {Content : Type} [DecidableEq Content]

/-- Two rows hold the same contents, and no nulls, in each pair of columns. -/
def Row.Matches (left right : Row Content) (columns : List (String × String)) : Prop :=
  ∀ pair ∈ columns, equality (left.read pair.1) (right.read pair.2) = .yes

instance (left right : Row Content) (columns : List (String × String)) :
    Decidable (left.Matches right columns) :=
  inferInstanceAs (Decidable (∀ pair ∈ columns, _))

theorem Bindings.agree_qualified (bindings : Bindings Content) (left right : String)
    (columns : List (String × String)) :
    bindings.agree (Hop.qualified left right columns) = .yes ↔
      (bindings left).Matches (bindings right) columns := by
  simp only [Bindings.agree, Truth.all_eq_yes, Hop.qualified, List.map_map, List.forall_mem_map]
  rfl

namespace Hop

/-- The step leads from a parent row to a related row. The link row counts only where there is a
link table. -/
def Leads (database : Database Content) (hop : Hop) (parent link related : Row Content) : Prop :=
  related ∈ database hop.related.table ∧
    match hop.link with
    | none => parent.Matches related hop.columns
    | some through =>
        link ∈ database through.table ∧ parent.Matches link through.columns ∧
          link.Matches related hop.columns

def bindRows (hop : Hop) (binding : String) (bindings : Bindings Content)
    (link related : Row Content) : Bindings Content :=
  match hop.link with
  | none => bindings.bind binding related
  | some _ => (bindings.bind (Join.linkBinding binding) link).bind binding related

theorem linkBinding_ne (binding : String) : Join.linkBinding binding ≠ binding := by
  intro same
  have lengths := congrArg String.length same
  simp [Join.linkBinding] at lengths

omit [DecidableEq Content] in
theorem bindRows_related (hop : Hop) (binding : String) (bindings : Bindings Content)
    (link related : Row Content) :
    hop.bindRows binding bindings link related binding = related := by
  unfold bindRows
  cases hop.link <;> exact Bindings.bind_same _ _ _

omit [DecidableEq Content] in
theorem bindRows_other (hop : Hop) {binding asked : String} (bindings : Bindings Content)
    (link related : Row Content) (apart : asked ≠ binding)
    (apartLink : asked ≠ Join.linkBinding binding) :
    hop.bindRows binding bindings link related asked = bindings asked := by
  unfold bindRows
  cases hop.link with
  | none => exact Bindings.bind_other _ _ apart
  | some _ => exact (Bindings.bind_other _ _ apart).trans (Bindings.bind_other _ _ apartLink)

theorem mem_extend (database : Database Content) (hop : Hop) {parent binding : String}
    (bindings found : Bindings Content) (apart : parent ≠ binding)
    (apartLink : parent ≠ Join.linkBinding binding) :
    found ∈ (hop.join parent binding).extend database bindings ↔
      ∃ link related, hop.Leads database (bindings parent) link related ∧
        found = hop.bindRows binding bindings link related := by
  have ownLink := linkBinding_ne binding
  cases linked : hop.link with
  | none =>
      simp only [Join.extend, join, linked, Option.map_none, Option.isSome_none,
        Bool.false_eq_true, if_false, Leads, bindRows]
      rw [Database.mem_bound]
      constructor
      · rintro ⟨related, held, rfl, agreed⟩
        rw [Bindings.agree_qualified, Bindings.bind_same, Bindings.bind_other _ _ apart] at agreed
        exact ⟨⟨[]⟩, related, ⟨held, agreed⟩, rfl⟩
      · rintro ⟨_, related, ⟨held, agreed⟩, rfl⟩
        refine ⟨related, held, rfl, ?_⟩
        rwa [Bindings.agree_qualified, Bindings.bind_same, Bindings.bind_other _ _ apart]
  | some through =>
      simp only [Join.extend, join, linked, Option.map_some, Option.isSome_some, if_true, Leads,
        bindRows, List.mem_flatMap, Database.mem_bound]
      constructor
      · rintro ⟨_, ⟨link, inTable, rfl, fromParent⟩, related, held, rfl, toRelated⟩
        rw [Bindings.agree_qualified, Bindings.bind_same,
          Bindings.bind_other _ _ apartLink] at fromParent
        rw [Bindings.agree_qualified, Bindings.bind_same, Bindings.bind_other _ _ ownLink,
          Bindings.bind_same] at toRelated
        exact ⟨link, related, ⟨held, inTable, fromParent, toRelated⟩, rfl⟩
      · rintro ⟨link, related, ⟨held, inTable, fromParent, toRelated⟩, rfl⟩
        refine ⟨_, ⟨link, inTable, rfl, ?_⟩, related, held, rfl, ?_⟩
        · rwa [Bindings.agree_qualified, Bindings.bind_same, Bindings.bind_other _ _ apartLink]
        · rwa [Bindings.agree_qualified, Bindings.bind_same, Bindings.bind_other _ _ ownLink,
            Bindings.bind_same]

theorem mem_search (database : Database Content) (hop : Hop) {parent binding : String}
    (bindings found : Bindings Content) (apart : parent ≠ binding)
    (apartLink : parent ≠ Join.linkBinding binding) :
    found ∈ (hop.join parent binding).search database bindings ↔
      ∃ link related, hop.Leads database (bindings parent) link related ∧
        found = hop.bindRows binding bindings link related := by
  have ownLink := linkBinding_ne binding
  rw [← mem_extend database hop bindings found apart apartLink]
  cases linked : hop.link with
  | none => simp [Join.search, Join.extend, join, linked]
  | some through =>
      -- The link keys name no table that is bound after the link table, so it is all one when they
      -- are asked.
      have late (link related : Row Content) :
          ((bindings.bind (Join.linkBinding binding) link).bind binding related).agree
              (qualified parent (Join.linkBinding binding) through.columns) = .yes ↔
            (bindings.bind (Join.linkBinding binding) link).agree
              (qualified parent (Join.linkBinding binding) through.columns) = .yes := by
        rw [Bindings.agree_qualified, Bindings.agree_qualified, Bindings.bind_other _ _ apart,
          Bindings.bind_other _ _ ownLink]
      simp only [Join.search, Join.extend, join, linked, Option.map_some, Option.isSome_some,
        if_true, List.mem_filter, List.mem_flatMap, Database.mem_bound, decide_eq_true_eq]
      constructor
      · rintro ⟨⟨_, ⟨link, inTable, rfl, -⟩, related, held, rfl, toRelated⟩, fromParent⟩
        exact ⟨_, ⟨link, inTable, rfl, (late link related).mp fromParent⟩, related, held, rfl,
          toRelated⟩
      · rintro ⟨_, ⟨link, inTable, rfl, fromParent⟩, related, held, rfl, toRelated⟩
        exact ⟨⟨_, ⟨link, inTable, rfl, by simp [Bindings.agree, Truth.all]⟩, related, held, rfl,
          toRelated⟩, (late link related).mpr fromParent⟩

end Hop

end FilterQuery
