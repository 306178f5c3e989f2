import FilterQuery.Proofs.Doubling
import FilterQuery.Proofs.Faithfulness

/-!
How often a query finds a root row. A plan that does not say DISTINCT counts on every join to find
one row at most. That is so for a relation to one row that is joined directly, since the related
columns are unique; a link table may hold a link twice. Main statement: a plan without link tables,
or with DISTINCT, gives no row twice; any other plan that finds a row at all gives it twice once its
link table holds the same links twice.
-/

namespace FilterQuery

variable {Content : Type} [DecidableEq Content] {database : Database Content}

/-- No two of the rows hold the same contents in all of the columns. A null keeps rows apart. -/
def UniqueOn (rows : List (Row Content)) (columns : List String) : Prop :=
  rows.Pairwise fun first second =>
    ¬ ∀ column ∈ columns, equality (first.read column) (second.read column) = .yes

instance (rows : List (Row Content)) (columns : List String) : Decidable (UniqueOn rows columns) :=
  inferInstanceAs (Decidable (rows.Pairwise _))

/-- What a schema promises of a database: primary keys are unique, and so are the related columns of
a relation to one row that has no link table. Nothing is promised of link tables. -/
structure Database.Constrained (graph : RelationGraph) (database : Database Content) : Prop where
  keys : ∀ name entity, graph.entity name = .ok entity →
    ((database entity.table).map (·.read entity.primaryKey)).Nodup
  related : ∀ entityName relation hop, graph.hop entityName relation = .ok hop →
    hop.kind.isMany = false → hop.link = none →
      UniqueOn (database hop.related.table) (hop.columns.map (·.2))

theorem length_filter_le_one {Item : Type} {keep : Item → Bool} {items : List Item}
    (apart : items.Pairwise fun first second => ¬ (keep first = true ∧ keep second = true)) :
    (items.filter keep).length ≤ 1 := by
  have kept := apart.sublist (List.filter_sublist (p := keep))
  cases found : items.filter keep with
  | nil => simp
  | cons first others =>
      cases others with
      | nil => simp
      | cons second rest =>
          rw [found, List.pairwise_cons] at kept
          have keepFirst : first ∈ items.filter keep := by simp [found]
          have keepSecond : second ∈ items.filter keep := by simp [found]
          exact absurd ⟨(List.mem_filter.mp keepFirst).2, (List.mem_filter.mp keepSecond).2⟩
            (kept.1 second List.mem_cons_self)

/-! A join leaves the rows of other names as they are. -/

theorem Database.bound_other {table name asked : String} {keys : List KeyPair}
    {bindings found : Bindings Content} (member : found ∈ database.bound table name keys bindings)
    (different : asked ≠ name) : found asked = bindings asked := by
  obtain ⟨row, _, rfl, _⟩ := (database.mem_bound table name keys bindings found).mp member
  exact Bindings.bind_other bindings row different

theorem Join.extend_other {join : Join} {asked : String} {bindings found : Bindings Content}
    (member : found ∈ join.extend database bindings) (absent : asked ∉ join.tableNames) :
    found asked = bindings asked := by
  unfold extend at member
  unfold tableNames at absent
  cases linked : join.link with
  | none =>
      simp only [linked, Option.map_none, Option.toList_none, List.nil_append,
        List.mem_singleton] at member absent
      exact Database.bound_other member absent
  | some link =>
      simp only [linked, Option.map_some, Option.toList_some, List.mem_append, List.mem_singleton,
        not_or, List.mem_flatMap] at member absent
      obtain ⟨middle, throughLink, toRelated⟩ := member
      exact (Database.bound_other toRelated absent.2).trans
        (Database.bound_other throughLink absent.1)

theorem Join.extendAll_other {joins : List Join} {asked : String}
    {bindings found : Bindings Content} (member : found ∈ extendAll database joins bindings)
    (absent : asked ∉ joins.flatMap tableNames) : found asked = bindings asked := by
  induction joins generalizing bindings with
  | nil => rw [List.mem_singleton.mp member]
  | cons join rest ih =>
      rw [extendAll, List.mem_flatMap] at member
      rw [List.flatMap_cons, List.mem_append, not_or] at absent
      obtain ⟨middle, extended, inRest⟩ := member
      exact (ih inRest absent.2).trans (extend_other extended absent.1)

/-! A direct join to one row finds one row at most. -/

theorem Row.Matches.same_columns {parent first second : Row Content}
    {columns : List (String × String)} (toFirst : parent.Matches first columns)
    (toSecond : parent.Matches second columns) :
    ∀ column ∈ columns.map (·.2), equality (first.read column) (second.read column) = .yes := by
  simp only [List.forall_mem_map]
  intro pair held
  obtain ⟨content, own, firstHolds⟩ := (equality_eq_yes _ _).mp (toFirst pair held)
  obtain ⟨same, sameOwn, secondHolds⟩ := (equality_eq_yes _ _).mp (toSecond pair held)
  cases own.symm.trans sameOwn
  exact (equality_eq_yes _ _).mpr ⟨content, firstHolds, secondHolds⟩

namespace Hop

theorem length_extend_le_one {graph : RelationGraph} (constrained : database.Constrained graph)
    {entityName relation : String} {hop : Hop} (leads : graph.hop entityName relation = .ok hop)
    (toOne : hop.kind.isMany = false) (direct : hop.link = none) {parent binding : String}
    (apart : parent ≠ binding) (bindings : Bindings Content) :
    ((hop.join parent binding).extend database bindings).length ≤ 1 := by
  have unique := constrained.related entityName relation hop leads toOne direct
  simp only [Join.extend, join, direct, Option.map_none, Option.isSome_none, Bool.false_eq_true,
    if_false, Database.bound]
  apply length_filter_le_one
  apply List.pairwise_map.mpr
  apply unique.imp
  rintro first second distinct ⟨firstAgrees, secondAgrees⟩
  simp only [decide_eq_true_eq, Bindings.agree_qualified, Bindings.bind_same,
    Bindings.bind_other _ _ apart] at firstAgrees secondAgrees
  exact distinct (firstAgrees.same_columns secondAgrees)

end Hop

theorem Join.length_extendAll_le_one {joins : List Join}
    (each : ∀ join ∈ joins, ∀ bindings, (join.extend database bindings).length ≤ 1)
    (bindings : Bindings Content) : (extendAll database joins bindings).length ≤ 1 := by
  induction joins generalizing bindings with
  | nil => simp [extendAll]
  | cons join rest ih =>
      rw [List.forall_mem_cons] at each
      rw [extendAll]
      cases found : join.extend database bindings with
      | nil => simp
      | cons first others =>
          have noneLeft : others = [] := by
            have short := each.1 bindings
            rw [found, List.length_cons] at short
            exact List.length_eq_zero_iff.mp (by omega)
          rw [noneLeft, List.flatMap_singleton]
          exact ih each.2 first

namespace JoinPlan

theorem Grown.mem_joins {graph : RelationGraph} {root : Entity} {scope : JoinScope}
    {plan : JoinPlan} (grown : Grown graph root scope plan) {join : Join}
    (held : join ∈ plan.joins) :
    ∃ entityName relation hop parent binding, graph.hop entityName relation = .ok hop ∧
      join = hop.join parent binding ∧ (parent = root.table ∨ parent ≠ binding) := by
  induction grown with
  | start => cases held
  | @step plan _ _ relation parent hop before reached _ leads ih =>
      rw [joins_add, List.mem_append, List.mem_singleton] at held
      rcases held with old | rfl
      · exact ih old
      · refine ⟨parent.entity, relation, hop, parent.binding, plan.nextBinding, leads, rfl, ?_⟩
        rcases before.reached_binding reached with own | ⟨number, small, named⟩
        · exact Or.inl own
        · right
          rw [named, TableName.nextBinding_eq]
          apply TableName.text_ne
          intro same
          have numbers := congrArg TableName.number same
          simp only [TableName.ofJoin] at numbers
          omega

/-- In a plan of direct joins to one row, every root row is found once at most. -/
theorem Grown.length_extendAll_le_one {graph : RelationGraph} {root : Entity} {scope : JoinScope}
    {plan : JoinPlan} (grown : Grown graph root scope plan)
    (named : (root.table :: plan.joins.flatMap Join.tableNames).Nodup)
    (toOne : plan.fansOut = false) (direct : ∀ join ∈ plan.joins, join.link = none)
    (constrained : database.Constrained graph) (bindings : Bindings Content) :
    (Join.extendAll database plan.joins bindings).length ≤ 1 := by
  apply Join.length_extendAll_le_one
  intro join held bindings
  obtain ⟨entityName, relation, hop, parent, binding, leads, rfl, origin⟩ := grown.mem_joins held
  have kind : hop.kind.isMany = false := by
    rw [fansOut, List.any_eq_false] at toOne
    exact Bool.eq_false_iff.mpr (toOne _ held)
  have unlinked : hop.link = none := Option.map_eq_none_iff.mp (direct _ held)
  apply Hop.length_extend_le_one constrained leads kind unlinked
  rcases origin with rfl | apart
  · intro same
    have inNames : root.table ∈ (hop.join root.table binding).tableNames := by
      simp [Hop.tableNames_join, same]
    exact (List.nodup_cons.mp named).1 (List.mem_flatMap.mpr ⟨_, held, inNames⟩)
  · exact apart

end JoinPlan

theorem sublist_singleton {Item : Type} {item : Item} {items : List Item}
    (short : items.length ≤ 1) (only : ∀ other ∈ items, other = item) : items.Sublist [item] := by
  cases items with
  | nil => exact List.nil_sublist _
  | cons first rest =>
      have noneLeft : rest = [] := List.length_eq_zero_iff.mp (by
        rw [List.length_cons] at short
        omega)
      rw [noneLeft, only first List.mem_cons_self]

theorem Database.Constrained.doubled {graph : RelationGraph}
    (constrained : database.Constrained graph) {table : String}
    (separate : ∀ name entity, graph.entity name = .ok entity → entity.table ≠ table) :
    (database.doubled table).Constrained graph where
  keys := by
    intro name entity found
    rw [database.doubled_other (separate name entity found)]
    exact constrained.keys name entity found
  related := by
    intro entityName relation hop leads toOne direct
    obtain ⟨declared, _, _, _, found, _⟩ := RelationGraph.hop_ok leads
    rw [database.doubled_other (separate declared.related hop.related found)]
    exact constrained.related entityName relation hop leads toOne direct

namespace Shelter

theorem constrained : Shelter.database.Constrained schema where
  keys := by
    have each : ∀ entity ∈ schema.entities.contents,
        ((Shelter.database entity.table).map (·.read entity.primaryKey)).Nodup := by decide +kernel
    intro name entity found
    exact each entity (Schema.mem_of_entity found)
  related := by
    have each : ∀ parent ∈ schema.entities.contents, ∀ relation ∈ parent.relations.contents,
        ∀ related ∈ schema.entities.contents, ∀ hop ∈ (Hop.of relation parent related).toOption,
          hop.kind.isMany = false → hop.link.isNone →
            UniqueOn (Shelter.database hop.related.table) (hop.columns.map (·.2)) := by
      decide +kernel
    intro entityName relationName hop leads toOne direct
    obtain ⟨relation, parent, declared, named, related, made⟩ := RelationGraph.hop_ok leads
    obtain ⟨sameParent, sameNamed, inParent⟩ := Schema.mem_of_relation declared
    cases named.symm.trans sameNamed
    exact each parent (Schema.mem_of_entity named) relation inParent hop.related
      (Schema.mem_of_entity related) hop (by rw [made]; rfl) toOne (by rw [direct]; rfl)

theorem keepings_separate (name : String) (entity : Entity)
    (found : schema.entity name = .ok entity) :
    entity.table ≠ "keepings" := by
  have each : ∀ entity ∈ schema.entities.contents, entity.table ≠ "keepings" := by decide +kernel
  exact each entity (Schema.mem_of_entity found)

end Shelter

namespace Assembler

variable {assembler : Assembler} {request : Request} {nodes : List Node} {root : Entity}
  {joined : JoinPlan} {plan : QueryPlan}

theorem Assembled.found_sublist (made : assembler.Assembled request nodes root joined plan)
    (toOne : plan.distinct = false) (direct : ∀ join ∈ plan.joins, join.link = none)
    (constrained : database.Constrained assembler.schema) (store : Store Content) :
    (plan.found store database).Sublist (database root.table) := by
  unfold QueryPlan.found
  split
  · rename_i named
    rw [QueryPlan.tableNames, made.binding, made.joins] at named
    rw [made.table, made.binding, made.joins]
    rw [made.distinct] at toOne
    rw [made.joins] at direct
    have each : ∀ row ∈ database root.table,
        (((Join.extendAll database joined.joins (Bindings.unbound.bind root.table row)).filter
          (plan.keeps store database)).map (· root.table)).Sublist [row] := by
      intro row _
      apply sublist_singleton
      · rw [List.length_map]
        exact Nat.le_trans (List.length_filter_le _ _)
          (made.covers.grown.length_extendAll_le_one named toOne direct constrained _)
      · intro other held
        obtain ⟨found, kept, rfl⟩ := List.mem_map.mp held
        have member := (List.mem_filter.mp kept).1
        rw [Join.extendAll_other member (List.nodup_cons.mp named).1, Bindings.bind_same]
    simpa using List.Sublist.flatMap_right (database root.table) each
  · exact List.nil_sublist _

/-- A plan gives no row twice when it says DISTINCT or joins no link table. Otherwise the
constraints of the schema do not suffice: whatever it selects it selects twice when a link table
holds its links twice. -/
theorem rows_nodup_unless_linked (assembler : Assembler) (rootName : String) (request : Request)
    {plan : QueryPlan} (assembled : assembler.assemble rootName request = .ok plan)
    (store : Store Content) :
    (plan.distinct = true ∨ (∀ join ∈ plan.joins, join.link = none) →
      ∀ database, Database.Constrained assembler.schema database →
        (plan.rows store database).Nodup) ∧
    (plan.distinct = false → ∀ join ∈ plan.joins, ∀ link, join.link = some link →
      (∀ name entity, assembler.schema.entity name = .ok entity → entity.table ≠ link.table) →
        ∀ database, Database.Constrained assembler.schema database → plan.rows store database ≠ [] →
          Database.Constrained assembler.schema (database.doubled link.table) ∧
            ¬ (plan.rows store (database.doubled link.table)).Nodup) := by
  obtain ⟨nodes, root, joined, _, rooted, made⟩ := assembled_of_assemble assembled
  constructor
  · intro single database constrained
    unfold QueryPlan.rows
    cases distinct : plan.distinct with
    | true => exact List.nodup_dedup _
    | false =>
        have direct := single.resolve_left (by simp [distinct])
        have tableNodup := (constrained.keys rootName root rooted).of_map
        exact tableNodup.sublist (made.found_sublist distinct direct constrained store)
  · intro distinct join held link linked separate database constrained some
    refine ⟨constrained.doubled separate, fun nodup => ?_⟩
    simp only [QueryPlan.rows, distinct, Bool.false_eq_true, if_false] at some nodup
    obtain ⟨row, member⟩ := List.exists_mem_of_ne_nil _ some
    exact List.nodup_iff_sublist.mp nodup row (QueryPlan.found_twice held linked member)

/-- The toys of Kaya do not count him twice, but a keeper who is entered twice does. -/
theorem kaya_once_by_toys :
    (∃ plan, Shelter.assembler.assemble "Pet" (({} : Request).withFilters
        [.composite "or" [Shelter.asks "toys.name" "=" "ball",
          Shelter.asks "toys.name" "=" "rope"]]) =
          .ok plan ∧ Shelter.kaya ∈ plan.rows Shelter.texts Shelter.database ∧
            (plan.rows Shelter.texts Shelter.database).Nodup) ∧
    ∃ plan, Shelter.assembler.assemble "Pet" (({} : Request).withFilters
        [Shelter.asks "keeper.name" "=" "Jasmine"]) = .ok plan ∧
          ¬ (plan.rows Shelter.texts (Shelter.database.doubled "keepings")).Nodup := by
  constructor
  · obtain ⟨plan, assembled, member, distinct⟩ : ∃ plan,
        Shelter.assembler.assemble "Pet" (({} : Request).withFilters [.composite "or"
          [Shelter.asks "toys.name" "=" "ball", Shelter.asks "toys.name" "=" "rope"]]) = .ok plan ∧
        Shelter.kaya ∈ plan.rows Shelter.texts Shelter.database ∧ plan.distinct = true :=
      ⟨_, rfl, by decide +kernel, rfl⟩
    refine ⟨plan, assembled, member, ?_⟩
    exact (rows_nodup_unless_linked Shelter.assembler "Pet" _ assembled Shelter.texts).1
      (Or.inl distinct) Shelter.database Shelter.constrained
  · obtain ⟨plan, assembled, single, joins, some⟩ : ∃ plan,
        Shelter.assembler.assemble "Pet" (({} : Request).withFilters
          [Shelter.asks "keeper.name" "=" "Jasmine"]) = .ok plan ∧ plan.distinct = false ∧
        (plan.joins.any fun join => join.link.any (·.table = "keepings")) = true ∧
        plan.rows Shelter.texts Shelter.database ≠ [] :=
      ⟨_, rfl, rfl, by decide +kernel, by decide +kernel⟩
    obtain ⟨join, held, linked⟩ := List.any_eq_true.mp joins
    obtain ⟨link, linkHeld, table⟩ := (Option.any_eq_true _ _).mp linked
    have named : link.table = "keepings" := of_decide_eq_true table
    refine ⟨plan, assembled, ?_⟩
    rw [← named]
    refine ((rows_nodup_unless_linked Shelter.assembler "Pet" _ assembled Shelter.texts).2
      single join held link linkHeld ?_ Shelter.database Shelter.constrained some).2
    rw [named]
    exact Shelter.keepings_separate

theorem kaya_twice_by_keeper :
    (Shelter.database.doubled "keepings").Constrained Shelter.schema ∧
      ∃ plan, Shelter.assembler.assemble "Pet" (({} : Request).withFilters
        [Shelter.asks "keeper.name" "=" "Jasmine"]) = .ok plan ∧
          plan.rows Shelter.texts (Shelter.database.doubled "keepings") =
              [Shelter.kaya, Shelter.kaya] ∧
            ¬ (plan.rows Shelter.texts (Shelter.database.doubled "keepings")).Nodup :=
  ⟨Shelter.constrained.doubled Shelter.keepings_separate, _, rfl, by decide +kernel,
    by decide +kernel⟩

end Assembler

end FilterQuery
