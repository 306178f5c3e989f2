import FilterQuery.Proofs.Duplicates
import FilterQuery.Proofs.PlanningOrder
import FilterQuery.Proofs.Verdicts
import Mathlib.Data.List.Induction
import Mathlib.Data.List.Pairwise

/-!
Scopes and relations to one row. A path along which every relation leads to one row at most leads to
the same row in every scope, so it is all one in how many scopes it is joined. Main statement: a
request whose joins lead to one row each selects the same rows under the global scope and under the
scope of groups, whatever its groups are.
-/

namespace FilterQuery

variable {Content : Type} [DecidableEq Content] {database : Database Content}

theorem equality_comm (left right : Option Content) :
    equality left right = equality right left := by
  cases left <;> cases right <;> simp [equality, eq_comm]

theorem UniqueOn.eq_of_same {rows : List (Row Content)} {columns : List String}
    (unique : UniqueOn rows columns) {first second : Row Content} (inFirst : first ∈ rows)
    (inSecond : second ∈ rows)
    (same : ∀ column ∈ columns, equality (first.read column) (second.read column) = .yes) :
    first = second := by
  by_contra different
  have symmetric : Std.Symm fun left right : Row Content =>
      ¬ ∀ column ∈ columns, equality (left.read column) (right.read column) = .yes := by
    refine ⟨fun left right apart agree => apart fun column held => ?_⟩
    rw [equality_comm]
    exact agree column held
  exact List.Pairwise.forall unique inFirst inSecond different same

/-- From every row the join leads to one row at most: it has no link table, and no two rows of its
table hold the same contents in the columns that are compared. -/
def Join.LeadsToOne (database : Database Content) (join : Join) : Prop :=
  join.link = none ∧ UniqueOn (database join.table) (join.keys.map fun pair => pair.2.column)

namespace Hop

def LeadsToOne (database : Database Content) (hop : Hop) : Prop :=
  hop.link = none ∧ UniqueOn (database hop.related.table) (hop.columns.map fun pair => pair.2)

variable {hop : Hop} {parent link related : Row Content}

theorem leadsToOne_of_join {start binding : String}
    (single : (hop.join start binding).LeadsToOne database) : hop.LeadsToOne database := by
  obtain ⟨direct, unique⟩ := single
  refine ⟨Option.map_eq_none_iff.mp direct, ?_⟩
  simpa [join, qualified, Function.comp_def] using unique

theorem LeadsToOne.related_unique (single : hop.LeadsToOne database)
    (leads : hop.Leads database parent link related) {otherLink other : Row Content}
    (leadsOther : hop.Leads database parent otherLink other) : related = other := by
  obtain ⟨direct, unique⟩ := single
  simp only [Leads, direct] at leads leadsOther
  exact unique.eq_of_same leads.1 leadsOther.1 (leads.2.same_columns leadsOther.2)

theorem LeadsToOne.leads_through (single : hop.LeadsToOne database)
    (leads : hop.Leads database parent link related) (other : Row Content) :
    hop.Leads database parent other related := by
  simpa only [Leads, single.1] using leads

end Hop

namespace Reading

def LeadsToOne (reading : Reading Content) (leaves : List Leaf) : Prop :=
  ∀ leaf ∈ leaves, ∀ path relation, path ++ [relation] <+: leaf.trail reading.names →
    ∀ parent hop, reading.graph.lead reading.root path = .ok parent →
      reading.graph.hop parent.name relation = .ok hop → hop.LeadsToOne reading.database

def inScope (reading : Reading Content) (scope : JoinScope) : Reading Content :=
  { reading with scope := scope }

variable {reading : Reading Content} {leaves : List Leaf} {nodes : List Node} {row : Row Content}
  {assignment : Assignment Content} {leaf : Leaf} {path : List String}

/-- In whichever scope a path is followed, the same row stands at its end. -/
theorem LeadsToOne.rowAt_eq (single : reading.LeadsToOne leaves)
    (fits : reading.Fits leaves assignment row) {other : Leaf} (held : leaf ∈ leaves)
    (heldOther : other ∈ leaves) (along : path <+: leaf.trail reading.names)
    (alongOther : path <+: other.trail reading.names) :
    assignment.rowAt row (reading.scope.key leaf.group) path =
      assignment.rowAt row (reading.scope.key other.group) path := by
  induction path using List.reverseRecOn with
  | nil => rfl
  | append_singleton shorter relation ih =>
      -- Both scopes go on from the same parent, and the relation leads from it to one row only.
      have before := List.prefix_append shorter [relation]
      have sameParent := ih (before.trans along) (before.trans alongOther)
      obtain ⟨parent, hop, led, leads, linked⟩ := fits _ shorter relation ⟨leaf, held, rfl, along⟩
      obtain ⟨_, _, ledOther, leadsOther, linkedOther⟩ :=
        fits _ shorter relation ⟨other, heldOther, rfl, alongOther⟩
      cases led.symm.trans ledOther
      cases leads.symm.trans leadsOther
      rw [← sameParent] at linkedOther
      have one := single leaf held shorter relation along parent hop led leads
      rw [Assignment.rowAt_concat, Assignment.rowAt_concat]
      exact one.related_unique linked linkedOther

open Classical in
/-- One row for a path in all scopes: the row that it has in the scope of some condition that
follows it. -/
noncomputable def gathered (reading : Reading Content) (leaves : List Leaf)
    (assignment : Assignment Content) : Assignment Content where
  related := fun key =>
    if followed : ∃ leaf ∈ leaves, key.path <+: leaf.trail reading.names then
      assignment.related ⟨reading.scope.key followed.choose.group, key.path⟩
    else assignment.related key
  link := assignment.link

theorem LeadsToOne.rowAt_gathered (single : reading.LeadsToOne leaves)
    (fits : reading.Fits leaves assignment row) (held : leaf ∈ leaves)
    (along : path <+: leaf.trail reading.names) (within : String) :
    (reading.gathered leaves assignment).rowAt row within path =
      assignment.rowAt row (reading.scope.key leaf.group) path := by
  rcases List.eq_nil_or_concat path with rfl | ⟨shorter, relation, rfl⟩
  · rfl
  · rw [List.concat_eq_append] at along ⊢
    have followed : ∃ other ∈ leaves, shorter ++ [relation] <+: other.trail reading.names :=
      ⟨leaf, held, along⟩
    have chosen := followed.choose_spec
    -- The chosen condition may be another one than the given, in another scope.
    rw [single.rowAt_eq fits held chosen.1 along chosen.2, Assignment.rowAt_concat,
      Assignment.rowAt_concat, gathered]
    exact dif_pos followed

theorem LeadsToOne.fits_gathered (single : reading.LeadsToOne leaves)
    (fits : reading.Fits leaves assignment row) (scope : JoinScope) :
    (reading.inScope scope).Fits leaves (reading.gathered leaves assignment) row := by
  rintro within path relation ⟨leaf, held, -, along⟩
  obtain ⟨parent, hop, led, leads, linked⟩ := fits _ path relation ⟨leaf, held, rfl, along⟩
  have one := single leaf held path relation along parent hop led leads
  have before := List.prefix_append path [relation]
  refine ⟨parent, hop, led, leads, ?_⟩
  rw [← Assignment.rowAt_concat _ row, single.rowAt_gathered fits held (before.trans along),
    single.rowAt_gathered fits held along, Assignment.rowAt_concat]
  exact one.leads_through linked _

theorem LeadsToOne.asks_gathered (single : reading.LeadsToOne leaves)
    (fits : reading.Fits leaves assignment row) (held : leaf ∈ leaves) (scope : JoinScope) :
    (reading.inScope scope).Asks (reading.gathered leaves assignment) row leaf ↔
      reading.Asks assignment row leaf := by
  rw [Asks, Asks, inScope, single.rowAt_gathered fits held (List.prefix_refl _)]

theorem LeadsToOne.selects_inScope (single : reading.LeadsToOne (Node.leavesOfAll nodes))
    (selects : reading.Selects nodes row) (scope : JoinScope) :
    (reading.inScope scope).Selects nodes row := by
  obtain ⟨inTable, assignment, fits, holds⟩ := selects
  refine ⟨inTable, reading.gathered _ assignment, single.fits_gathered fits scope, ?_⟩
  exact (Node.allHold_congr nodes fun leaf held => single.asks_gathered fits held scope).mpr holds

theorem LeadsToOne.selects_inScope_iff (single : reading.LeadsToOne (Node.leavesOfAll nodes))
    (scope : JoinScope) : (reading.inScope scope).Selects nodes row ↔
      reading.Selects nodes row := by
  constructor
  · intro selects
    have singleThere : (reading.inScope scope).LeadsToOne (Node.leavesOfAll nodes) := single
    exact singleThere.selects_inScope selects reading.scope
  · exact fun selects => single.selects_inScope selects scope

end Reading

instance (database : Database Content) (join : Join) : Decidable (join.LeadsToOne database) :=
  inferInstanceAs (Decidable (_ ∧ _))

namespace Shelter

def ball : Row String := row [("id", "1"), ("name", "ball"), ("pet_id", "1")]

/-- The toys of Kaya and of Jinx, each of whom is asked for in a group of its own. -/
def byOwner : Request where
  filters := [.composite "or" [.leaf "owner.name" "=" (.text "Kaya") (some "one"),
    .leaf "owner.name" "=" (.text "Jinx") (some "other")]]

end Shelter

namespace Assembler

theorem Assembled.leadsToOne {assembler : Assembler} {request : Request} {nodes : List Node}
    {root : Entity} {joined : JoinPlan} {plan : QueryPlan}
    (made : assembler.Assembled request nodes root joined plan) (store : Store Content)
    (single : ∀ join ∈ plan.joins, join.LeadsToOne database) :
    (assembler.reading request root store database).LeadsToOne (Node.leavesOfAll nodes) := by
  intro leaf held path relation along parent hop led leads
  have joinedHere := (made.covers.mem_keys_iff _ path relation).mpr ⟨leaf, held, rfl, along⟩
  obtain ⟨target, found⟩ := JoinPlan.exists_of_mem_keys joinedHere
  obtain ⟨before, _, reached, leadsThere, inJoins, _⟩ := made.covers.grown.joined_from found
  obtain ⟨_, ledThere, named⟩ := made.covers.grown.reached_lead reached
  cases led.symm.trans ledThere
  rw [named] at leadsThere
  cases leads.symm.trans leadsThere
  rw [made.joins] at single
  exact Hop.leadsToOne_of_join (single _ inJoins)

/-- A request is assembled under both scopes or fails under both with the same fault; and when each
join of one plan leads to one row at most, the other plan selects the same rows, whatever the groups
of the conditions are. -/
theorem mem_rows_any_scope (schema : Schema) (settings : Settings) (rootName : String)
    (request : Request) (first second : JoinScope)
    (plain : ∀ root, schema.entity rootName = .ok root → ¬ IsGenerated root.table) :
    let under (scope : JoinScope) :=
      (Assembler.mk schema { settings with joinScope := scope }).assemble rootName request
    (∀ fault, under first = .error fault ↔ under second = .error fault) ∧
      ∀ plan, under first = .ok plan → ∃ other, under second = .ok other ∧
        ∀ {Content : Type} [DecidableEq Content] (store : Store Content)
          (database : Database Content),
          (∀ join ∈ plan.joins, join.LeadsToOne database) →
            ∀ row, row ∈ plan.rows store database ↔ row ∈ other.rows store database := by
  intro under
  have sameFault : faultOf (under first) = faultOf (under second) :=
    faultOf_assemble rootName request rfl rfl
  constructor
  · intro fault
    rw [← faultOf_eq_some, sameFault, faultOf_eq_some]
  · intro plan assembled
    obtain ⟨other, assembledThere⟩ : ∃ other, under second = .ok other := by
      rw [← faultOf_eq_none, ← sameFault, assembled]
      rfl
    refine ⟨other, assembledThere, ?_⟩
    intro Content _ store database single row
    obtain ⟨nodes, root, _, read, rooted, made⟩ := assembled_of_assemble assembled
    obtain ⟨_, _, _, readThere, rootedThere, madeThere⟩ := assembled_of_assemble assembledThere
    cases read.symm.trans readThere
    cases rooted.symm.trans rootedThere
    rw [made.mem_rows_iff (plain root rooted), madeThere.mem_rows_iff (plain root rooted)]
    exact ((made.leadsToOne store single).selects_inScope_iff second).symm

/-- Each toy has one owner, who may be asked for under two groups: one joined table finds the ball,
so two find it. -/
theorem ball_in_any_scope :
    ∃ plan other,
      (Assembler.mk Shelter.schema { joinScope := .global }).assemble "Toy" Shelter.byOwner =
        .ok plan ∧
      (Assembler.mk Shelter.schema { joinScope := .conditionGroup }).assemble "Toy"
        Shelter.byOwner = .ok other ∧
      plan.joins.length = 1 ∧ other.joins.length = 2 ∧
        Shelter.ball ∈ other.rows Shelter.texts Shelter.database := by
  obtain ⟨plan, assembled, single, member, length⟩ : ∃ plan,
      (Assembler.mk Shelter.schema { joinScope := .global }).assemble "Toy" Shelter.byOwner =
        .ok plan ∧
      (∀ join ∈ plan.joins, join.LeadsToOne Shelter.database) ∧
      Shelter.ball ∈ plan.rows Shelter.texts Shelter.database ∧ plan.joins.length = 1 :=
    ⟨_, rfl, by decide +kernel, by decide +kernel, rfl⟩
  have plain : ∀ root, Shelter.schema.entity "Toy" = .ok root → ¬ IsGenerated root.table := by
    intro root rooted
    have table : (Shelter.schema.entity "Toy").map (·.table) = .ok "toys" := rfl
    rw [rooted] at table
    have named : root.table = "toys" := Except.ok.inj table
    rw [named]
    exact not_isGenerated 't' rfl (by decide) (by decide)
  obtain ⟨other, assembledThere, same⟩ :=
    (mem_rows_any_scope Shelter.schema {} "Toy" Shelter.byOwner .global .conditionGroup
      plain).2 plan assembled
  change (Assembler.mk Shelter.schema { joinScope := .conditionGroup }).assemble "Toy"
    Shelter.byOwner = .ok other at assembledThere
  have lengthThere : ((Assembler.mk Shelter.schema { joinScope := .conditionGroup }).assemble "Toy"
      Shelter.byOwner).map (·.joins.length) = .ok 2 := rfl
  rw [assembledThere] at lengthThere
  exact ⟨plan, other, assembled, assembledThere, length, Except.ok.inj lengthThere,
    (same Shelter.texts Shelter.database single Shelter.ball).mp member⟩

end Assembler

end FilterQuery
