import FilterQuery.Proofs.OrderClauses
import FilterQuery.Proofs.Precedence
import FilterQuery.Proofs.Registry

/-!
Where the columns of a statement belong. A join speaks of its own tables and of one that comes
before it, a condition of the tables outside, and a subquery of its own table and one outside. Main
statement: this is so in every assembled plan, and each condition compares the column that its path
names, on the table that its path leads to.
-/

namespace FilterQuery

/-! What each place of a statement speaks of. -/

namespace Join

/-- Some keys, each of which sets a column of one table equal to a column of another. -/
def Ties (left right : String) (keys : List KeyPair) : Prop :=
  keys ≠ [] ∧ ∀ pair ∈ keys, pair.1.qualifier = left ∧ pair.2.qualifier = right

/-- The keys tie the tables of the join to its parent, through the link table when there is one, and
to nothing else. -/
def TiedTo (join : Join) (parent : String) : Prop :=
  match join.link with
  | none => Ties parent join.binding join.keys
  | some link => Ties parent link.binding link.keys ∧ Ties link.binding join.binding join.keys

end Join

/-- Every column is one of the named tables. A subquery starts from one of them, and what it asks is
asked of its own table alone. -/
inductive Condition.Scoped : List String → Condition → Prop where
  | literal {names value} : Scoped names (.literal value)
  | compare {names column comparison value} (held : column.qualifier ∈ names) :
      Scoped names (.compare column comparison value)
  | isNull {names column negated} (held : column.qualifier ∈ names) :
      Scoped names (.isNull column negated)
  | isIn {names column values} (held : column.qualifier ∈ names) :
      Scoped names (.isIn column values)
  | like {names column pattern} (held : column.qualifier ∈ names) :
      Scoped names (.like column pattern)
  | someRelated {names join inner parent} (outer : parent ∈ names) (tied : join.TiedTo parent)
      (own : Scoped [join.binding] inner) : Scoped names (.someRelated join inner)
  | group {names inner} (inside : Scoped names inner) : Scoped names (.group inner)
  | all {names parts} (each : ∀ part ∈ parts, Scoped names part) : Scoped names (.all parts)
  | any {names parts} (each : ∀ part ∈ parts, Scoped names part) : Scoped names (.any parts)

namespace QueryPlan

/-- The tables that a statement binds outside its subqueries, each with its name. Nothing but a join
speaks of a link table. -/
def bound (plan : QueryPlan) : List (String × String) :=
  (plan.binding, plan.table) :: plan.joins.map fun join => (join.binding, join.table)

structure WellScoped (plan : QueryPlan) : Prop where
  joins : ∀ {index : Nat} {join}, plan.joins[index]? = some join →
    ∃ parent ∈ plan.binding :: (plan.joins.take index).map (·.binding), join.TiedTo parent
  condition : ∀ condition ∈ plan.condition, condition.Scoped (plan.bound.map (·.1))
  orderBy : ∀ clause ∈ plan.orderBy, clause.column.qualifier = plan.binding

def atoms (plan : QueryPlan) : List Condition :=
  plan.condition.toList.flatMap (·.formula.atoms)

end QueryPlan

/-! What the path of a condition names. -/

/-- The relations to the row that a condition compares a column of, and the attribute that it
compares. The members of a collection are compared as a whole where no attribute is named. -/
def Leaf.sought (leaf : Leaf) : List String × Option String :=
  if leaf.operator = .contains ∧ leaf.path.relations = [] then ([leaf.path.attributeName], none)
  else (leaf.path.relations, some leaf.path.attributeName)

/-- The column of an attribute; as a whole a row is known by its primary key. -/
def Entity.columnOf (entity : Entity) : Option String → Option String
  | some attributeName => entity.attributes.find? attributeName
  | none => some entity.primaryKey

section Placed

variable (schema : Schema) (names : PropertyMap) (root : Entity) (plan : QueryPlan) (leaf : Leaf)

/-- The condition compares a column of an entity: of a table of the statement, or of one that is
searched from the table that the relations before it lead to. -/
inductive Leaf.Compares (entity : Entity) (column : String) : Condition → Prop where
  | outside {binding condition} (single : leaf.operator ≠ .contains)
      (bound : (binding, entity.table) ∈ plan.bound)
      (asks : Planned.OnColumn leaf ⟨binding, column⟩ condition) : Compares entity column condition
  | inside {join parent owner} (searches : leaf.operator = .contains)
      (walked : schema.follow root (leaf.joinSegments.map names.resolve) = some owner)
      (outer : (parent, owner.table) ∈ plan.bound) (tied : join.TiedTo parent)
      (table : join.table = entity.table) :
      Compares entity column (.someRelated join (.equals ⟨join.binding, column⟩ leaf.value))

def Leaf.Placed (condition : Condition) : Prop :=
  ∃ entity column, schema.follow root (leaf.sought.1.map names.resolve) = some entity ∧
    entity.columnOf (leaf.sought.2.map names.resolve) = some column ∧
      leaf.Compares schema names root plan entity column condition

end Placed

/-- Every column of the plan belongs where it stands, the conditions compare what their paths name,
and the order is by what its keys name. -/
structure QueryPlan.Resolved (plan : QueryPlan) (schema : Schema) (names : PropertyMap)
    (root : Entity) (leaves : List Leaf) (keys : List SortKey) : Prop where
  wellScoped : plan.WellScoped
  binding : plan.binding = root.table
  table : plan.table = root.table
  leaves : List.Forall₂ (fun leaf condition => leaf.Placed schema names root plan condition) leaves
    plan.atoms
  keys : List.Forall₂ (fun key clause =>
    root.attributes.find? (SortKey.resolve names key) = some clause.column.column) keys plan.orderBy

/-! Joins. -/

namespace Hop

theorem ties_qualified (left right : String) {columns : List (String × String)}
    (paired : columns ≠ []) : Join.Ties left right (qualified left right columns) := by
  refine ⟨by simpa [qualified] using paired, ?_⟩
  intro pair held
  obtain ⟨_, _, rfl⟩ := List.mem_map.mp held
  exact ⟨rfl, rfl⟩

theorem tiedTo_join {graph : RelationGraph} {entityName relation : String} {hop : Hop}
    (leads : graph.hop entityName relation = .ok hop) (parent binding : String) :
    (hop.join parent binding).TiedTo parent := by
  obtain ⟨_, _, _, _, _, made⟩ := RelationGraph.hop_ok leads
  obtain ⟨paired, linked⟩ := columns_ne_nil made
  unfold Join.TiedTo
  cases through : hop.link with
  | none =>
      simp only [join, through, Option.map_none, Option.isSome_none, Bool.false_eq_true, if_false]
      exact ties_qualified parent binding paired
  | some link =>
      simp only [join, through, Option.map_some, Option.isSome_some, if_true]
      exact ⟨ties_qualified _ _ (linked link through), ties_qualified _ _ paired⟩

end Hop

namespace JoinPlan

variable {graph : RelationGraph} {root : Entity} {scope : JoinScope} {plan : JoinPlan}

theorem Grown.joins_tied (grown : Grown graph root scope plan) {index : Nat} {join : Join}
    (held : plan.joins[index]? = some join) :
    ∃ parent ∈ root.table :: (plan.joins.take index).map (·.binding), join.TiedTo parent := by
  induction grown with
  | start => cases held
  | @step plan _ _ _ parent hop before reached _ leads ih =>
      rw [joins_add] at held ⊢
      rcases Nat.lt_trichotomy index plan.joins.length with earlier | rfl | later
      · rw [List.getElem?_append_left earlier] at held
        rw [List.take_append_of_le_length (Nat.le_of_lt earlier)]
        exact ih held
      · rw [List.getElem?_concat_length, Option.some.injEq] at held
        obtain ⟨_, _, _, bound⟩ := before.reached_bound reached
        have known := List.mem_map_of_mem (f := Prod.fst) bound
        rw [List.map_cons, List.map_map] at known
        rw [List.take_left, ← held]
        exact ⟨parent.binding, known, Hop.tiedTo_join leads _ _⟩
      · rw [List.getElem?_eq_none (by rw [List.length_append]; exact later)] at held
        cases held

end JoinPlan

/-! Conditions. -/

namespace Condition

variable {names : List String}

theorem scoped_member {column : ColumnRef} (held : column.qualifier ∈ names) (values : List Value) :
    (member column values).Scoped names := by
  unfold member
  split
  · exact .literal
  · exact .isIn held

theorem scoped_equals {column : ColumnRef} (held : column.qualifier ∈ names) (value : Value) :
    (equals column value).Scoped names := by
  cases value with
  | null => exact .isNull held
  | list values => exact scoped_member held values
  | _ => exact .compare held

theorem scoped_differs {column : ColumnRef} (held : column.qualifier ∈ names) (value : Value) :
    (differs column value).Scoped names := by
  cases value with
  | null => exact .isNull held
  | _ => exact .compare held

theorem scoped_onColumn {leaf : Leaf} {column : ColumnRef} {condition : Condition}
    (held : column.qualifier ∈ names) (made : Planned.OnColumn leaf column condition) :
    condition.Scoped names := by
  cases made with
  | equality => exact scoped_equals held leaf.value
  | difference => exact scoped_differs held leaf.value
  | order => exact .compare held
  | membership => exact scoped_member held _
  | pattern => exact .like held

mutual

theorem scoped_of_atoms : (condition : Condition) →
    (∀ atom ∈ condition.formula.atoms, atom.Scoped names) → condition.Scoped names
  | .literal _, each | .compare .., each | .isNull .., each | .isIn .., each | .like .., each
  | .someRelated .., each => each _ (List.mem_singleton_self _)
  | .group inner, each => by
      rw [formula] at each
      exact .group (scoped_of_atoms inner each)
  | .all parts, each => by
      rw [formula, Formula.atoms] at each
      exact .all (scoped_of_atomsOfAll parts each)
  | .any parts, each => by
      rw [formula, Formula.atoms] at each
      exact .any (scoped_of_atomsOfAll parts each)

theorem scoped_of_atomsOfAll : (parts : List Condition) →
    (∀ atom ∈ Formula.atomsOfAll (formulas parts), atom.Scoped names) →
      ∀ part ∈ parts, part.Scoped names
  | [], _ => List.forall_mem_nil _
  | part :: rest, each => by
      rw [formulas, Formula.atomsOfAll, List.forall_mem_append] at each
      exact List.forall_mem_cons.mpr
        ⟨scoped_of_atoms part each.1, scoped_of_atomsOfAll rest each.2⟩

end

end Condition

namespace Leaf

variable {graph : RelationGraph} {names : PropertyMap} {entityName : String} {leaf : Leaf}

theorem sought_of_single (single : leaf.operator ≠ .contains) :
    leaf.sought = (leaf.path.relations, some leaf.path.attributeName) :=
  if_neg fun both => single both.1

theorem sought_of_contains (searches : leaf.operator = .contains) :
    leaf.sought = (leaf.joinSegments ++ [(Planned.collection leaf.path).1],
      (Planned.collection leaf.path).2) := by
  unfold sought joinSegments Planned.collection
  rcases List.eq_nil_or_concat leaf.path.relations with none_ | ⟨shorter, last, longer⟩
  · simp [searches, none_]
  · simp [searches, longer]

theorem joinSegments_of_single (single : leaf.operator ≠ .contains) :
    leaf.joinSegments = leaf.path.relations := by
  unfold joinSegments
  split
  · contradiction
  · rfl

theorem aim_own_ok {column : String} (aimed : leaf.aim graph names entityName = .ok (.own column)) :
    leaf.operator ≠ .contains ∧
      graph.column entityName (names.resolve leaf.path.attributeName) = .ok column := by
  by_cases searches : leaf.operator = .contains
  · simp only [aim, searches, if_true, bind_ok_iff] at aimed
    obtain ⟨hop, _, aimed⟩ := aimed
    split at aimed
    all_goals
      obtain ⟨_, _, same⟩ := map_ok_iff.mp aimed
      cases same
  · simp only [aim, searches, if_false, map_ok_iff] at aimed
    obtain ⟨_, named, same⟩ := aimed
    cases same
    exact ⟨searches, named⟩

theorem aim_member_column {hop : Hop} {column : String}
    (aimed : leaf.aim graph names entityName = .ok (.member hop column)) :
    graph.hop entityName (names.resolve (Planned.collection leaf.path).1) = .ok hop ∧
      (∀ name, (Planned.collection leaf.path).2 = some name →
        graph.column hop.related.name (names.resolve name) = .ok column) ∧
      ((Planned.collection leaf.path).2 = none →
        ∃ entity, graph.entity hop.related.name = .ok entity ∧ entity.primaryKey = column) := by
  have searches := (aim_member aimed).1
  simp only [aim, searches, if_true, bind_ok_iff] at aimed
  obtain ⟨found, leads, aimed⟩ := aimed
  cases named : (Planned.collection leaf.path).2 with
  | some name =>
      simp only [named] at aimed
      obtain ⟨_, known, same⟩ := map_ok_iff.mp aimed
      cases same
      refine ⟨leads, ?_, by simp⟩
      rintro _ ⟨⟩
      exact known
  | none =>
      simp only [named] at aimed
      obtain ⟨entity, known, same⟩ := map_ok_iff.mp aimed
      cases same
      exact ⟨leads, by simp, fun _ => ⟨entity, known, rfl⟩⟩

section Named

variable {schema : Schema} {root entity : Entity} {column : String}

theorem named_own (registered : schema.Registered) (known : schema.entity root.name = .ok root)
    (led : schema.graph.lead root (leaf.trail names) = .ok entity)
    (aimed : leaf.aim schema names entity.name = .ok (.own column)) :
    schema.follow root (leaf.sought.1.map names.resolve) = some entity ∧
      entity.columnOf (leaf.sought.2.map names.resolve) = some column := by
  obtain ⟨single, named⟩ := aim_own_ok aimed
  obtain ⟨walked, knownEntity⟩ := registered.follow_of_lead known led
  rw [trail, joinSegments_of_single single] at walked
  rw [sought_of_single single]
  exact ⟨walked, Schema.column_declared knownEntity named⟩

theorem named_member {hop : Hop} (registered : schema.Registered)
    (known : schema.entity root.name = .ok root)
    (led : schema.graph.lead root (leaf.trail names) = .ok entity)
    (aimed : leaf.aim schema names entity.name = .ok (.member hop column)) :
    schema.follow root (leaf.sought.1.map names.resolve) = some hop.related ∧
      hop.related.columnOf (leaf.sought.2.map names.resolve) = some column := by
  obtain ⟨leads, ofAttribute, asWhole⟩ := aim_member_column aimed
  obtain ⟨walked, knownRelated⟩ :=
    registered.follow_of_lead known (RelationGraph.lead_hop led leads)
  rw [sought_of_contains (aim_member aimed).1, List.map_append]
  refine ⟨walked, ?_⟩
  cases named : (Planned.collection leaf.path).2 with
  | some name => exact Schema.column_declared knownRelated (ofAttribute name named)
  | none =>
      obtain ⟨sameRelated, found, primary⟩ := asWhole named
      cases knownRelated.symm.trans found
      exact congrArg some primary

end Named

end Leaf

theorem Leaf.Placed.scoped {schema : Schema} {names : PropertyMap} {root : Entity}
    {plan : QueryPlan} {leaf : Leaf} {condition : Condition}
    (placed : leaf.Placed schema names root plan condition) :
    condition.Scoped (plan.bound.map (·.1)) := by
  obtain ⟨entity, column, _, _, compares⟩ := placed
  cases compares with
  | outside _ bound asks => exact Condition.scoped_onColumn (List.mem_map_of_mem bound) asks
  | @inside join _ _ _ _ outer tied =>
      have own : (⟨join.binding, column⟩ : ColumnRef).qualifier ∈ [join.binding] :=
        List.mem_singleton_self _
      exact .someRelated (List.mem_map_of_mem outer) tied (Condition.scoped_equals own leaf.value)

/-! Orders. -/

namespace Assembler

variable {assembler : Assembler} {rootName : String} {request : Request} {nodes : List Node}
  {root : Entity} {joined : JoinPlan} {plan : QueryPlan}

theorem orderClauses_columns {names : PropertyMap} {sort : SortRequest}
    {directions : DirectionRequest} {clauses : List OrderClause}
    (ordered : assembler.orderClauses root names sort directions = .ok clauses) :
    List.Forall₂ (fun key clause => clause.column.qualifier = root.table ∧
      assembler.schema.column root.name (SortKey.resolve names key) = .ok clause.column.column)
      sort.keys clauses := by
  obtain ⟨flags, _, paired, sorted⟩ := orderClauses_ok_iff.mp ordered
  have keys : sort.keys = (sort.keys.zip flags).map Prod.fst :=
    (List.map_fst_zip (Nat.le_of_eq paired.symm)).symm
  rw [keys, List.forall₂_map_left_iff]
  exact sorted.imp fun _ _ sorts => ⟨sorts.table, sorts.column⟩

theorem Assembled.bound_eq (made : assembler.Assembled request nodes root joined plan) :
    plan.bound =
      (root.table, root.table) :: joined.joins.map fun join => (join.binding, join.table) := by
  rw [QueryPlan.bound, made.binding, made.table, made.joins]

theorem Assembled.placed (made : assembler.Assembled request nodes root joined plan)
    (registered : assembler.schema.Registered)
    (known : assembler.schema.entity root.name = .ok root) {leaf : Leaf}
    (held : leaf ∈ Node.leavesOfAll nodes) {condition : Condition}
    (becomes : (Planned.mk assembler.schema (assembler.effectiveNames request.names) joined).Becomes
      leaf condition) :
    leaf.Placed assembler.schema (assembler.effectiveNames request.names) root plan condition := by
  obtain ⟨subqueries, built⟩ := becomes
  obtain ⟨target, entity, reached, led, same⟩ := made.covers.buildLeaf_eq held
  rw [same] at built
  obtain ⟨aim, aimed, compiled⟩ := bind_ok_iff.mp built
  obtain ⟨sameEntity, sameLed, _, bound⟩ := made.covers.grown.reached_bound reached
  cases led.symm.trans sameLed
  rw [← made.bound_eq] at bound
  cases aim with
  | own column =>
      obtain ⟨walked, named⟩ := Leaf.named_own registered known led aimed
      exact ⟨entity, column, walked, named,
        .outside (Leaf.aim_own_ok aimed).1 bound (Planned.onColumn_made compiled)⟩
  | member hop column =>
      obtain ⟨walked, named⟩ := Leaf.named_member registered known led aimed
      obtain ⟨outer, _⟩ := registered.follow_of_lead known led
      have tied := Hop.tiedTo_join (Leaf.aim_member_column aimed).1
      cases compiled
      exact ⟨hop.related, column, walked, named,
        .inside (Leaf.aim_member aimed).1 outer bound (tied _ _) rfl⟩

theorem Assembled.atoms_placed (made : assembler.Assembled request nodes root joined plan)
    (registered : assembler.schema.Registered)
    (known : assembler.schema.entity root.name = .ok root) :
    List.Forall₂ (fun leaf condition => leaf.Placed assembler.schema
      (assembler.effectiveNames request.names) root plan condition)
        (Node.leavesOfAll nodes) plan.atoms := by
  have condition := made.condition
  unfold QueryPlan.atoms
  cases tied : tree nodes with
  | none =>
      rw [tied] at condition
      rw [condition, eq_nil_of_tree tied]
      exact .nil
  | some node =>
      rw [tied] at condition
      obtain ⟨compiled, same, built⟩ := condition
      have agrees := (Planned.agrees_build node built).atoms
      rw [Node.atoms_formula, leaves_tree tied] at agrees
      rw [same, Option.toList_some, List.flatMap_singleton]
      have among := (List.forall₂_and_left (p := (· ∈ Node.leavesOfAll nodes)) _ _).mpr
        ⟨fun leaf held => held, agrees⟩
      exact among.imp fun leaf atom both => made.placed registered known both.1 both.2

/-- Whatever entities are registered and whatever the settings and the request, every column of an
assembled plan belongs where it stands and is the column that the request names. -/
theorem resolved_of_assemble (entities : List Entity) (settings : Settings) (rootName : String)
    (request : Request) {plan : QueryPlan}
    (assembled :
      (Assembler.mk (.ofEntities entities) settings).assemble rootName request = .ok plan) :
    ∃ nodes root, Node.ofRawAll settings.defaultGroup request.filters = .ok nodes ∧
      (Schema.ofEntities entities).entity rootName = .ok root ∧
        plan.Resolved (.ofEntities entities)
          ((Assembler.mk (.ofEntities entities) settings).effectiveNames request.names) root
          (Node.leavesOfAll nodes) request.sort.keys := by
  have registered := Schema.registered_ofEntities entities
  obtain ⟨nodes, root, joined, read, rooted, made⟩ := assembled_of_assemble assembled
  have known : (Schema.ofEntities entities).entity root.name = .ok root := by
    rwa [registered rootName root rooted]
  obtain ⟨_, _, _, _, orderBy, _, sameRooted, _, ordered, rfl⟩ := exists_of_assemble assembled
  cases rooted.symm.trans sameRooted
  have placed := made.atoms_placed registered known
  have columns := orderClauses_columns ordered
  refine ⟨nodes, root, read, rooted, ⟨?_, ?_, ?_⟩, made.binding, made.table, placed, ?_⟩
  · intro index join held
    rw [made.binding, made.joins]
    rw [made.joins] at held
    exact made.covers.grown.joins_tied held
  · intro condition held
    apply Condition.scoped_of_atoms
    intro atom inCondition
    have inPlan : atom ∈ QueryPlan.atoms _ :=
      List.mem_flatMap.mpr ⟨condition, Option.mem_toList.mpr held, inCondition⟩
    obtain ⟨_, _, isPlaced⟩ := Formula.exists_of_forall₂ placed inPlan
    exact isPlaced.scoped
  · intro clause held
    obtain ⟨_, _, same, _⟩ := Formula.exists_of_forall₂ columns held
    rw [same, made.binding]
  · exact columns.imp fun _ _ both => Schema.column_declared known both.2

end Assembler

namespace Shelter

/-- Names are asked for as labels: of a toy that is joined, of the owner of a toy that is searched,
and of the keeper as a whole. -/
def labelled : Request where
  filters := [asks "toys.label" "=" "ball",
    .composite "or" [asks "toys.owner.label" "contains" "Kaya", asks "keeper" "contains" "7"]]
  names := some ⟨.ofList [("label", "name")]⟩
  sort := .joined "label, id"

end Shelter

theorem Assembler.labelled_resolved : ∃ plan nodes root,
    Shelter.assembler.assemble "Pet" Shelter.labelled = .ok plan ∧
      Node.ofRawAll "__default__" Shelter.labelled.filters = .ok nodes ∧
        Shelter.schema.entity "Pet" = .ok root ∧
          plan.Resolved Shelter.schema ⟨.ofList [("label", "name")]⟩ root (Node.leavesOfAll nodes)
            [.requested "label", .requested "id"] := by
  obtain ⟨plan, assembled⟩ : ∃ plan,
      Shelter.assembler.assemble "Pet" Shelter.labelled = .ok plan := ⟨_, rfl⟩
  obtain ⟨nodes, root, read, rooted, resolved⟩ :=
    resolved_of_assemble _ _ "Pet" Shelter.labelled assembled
  exact ⟨plan, nodes, root, assembled, read, rooted, resolved⟩

end FilterQuery
