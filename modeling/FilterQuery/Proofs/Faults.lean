import FilterQuery.Proofs.Faithfulness
import FilterQuery.Proofs.PlanHistory

/-!
What can go wrong when a request is assembled. The look-ups can fail, and so can the reading of the
filters and of the order; what was planned is always found again, and a value that was accepted
always compiles. Main statement: the compiler itself is never at fault, and once the filters are
read and their paths planned, the schema alone is.
-/

namespace FilterQuery

namespace Fault

def Foreseen (fault : Fault) : Prop :=
  fault.code ≠ .internal

def OfSchema (fault : Fault) : Prop :=
  fault.code = .fieldResolution ∨ fault.code = .invalidConfiguration

theorem OfSchema.foreseen {fault : Fault} (ofSchema : fault.OfSchema) : fault.Foreseen := by
  rcases ofSchema with unresolved | misconfigured
  · simp [Foreseen, unresolved]
  · simp [Foreseen, misconfigured]

end Fault

def FailsOnly (kind : Fault → Prop) {Result : Type} (outcome : Except Fault Result) : Prop :=
  ∀ fault, outcome = .error fault → kind fault

section Outcomes

variable {First Second : Type} {kind other : Fault → Prop} {outcome : Except Fault First}

theorem failsOnly_ok (result : First) : FailsOnly kind (.ok result : Except Fault First) := by
  intro fault failed
  cases failed

theorem failsOnly_error {fault : Fault} (isKind : kind fault) :
    FailsOnly kind (.error fault : Except Fault First) := by
  intro found failed
  cases failed
  exact isKind

theorem FailsOnly.imp (only : FailsOnly kind outcome)
    (wider : ∀ {fault}, kind fault → other fault) :
    FailsOnly other outcome :=
  fun fault failed => wider (only fault failed)

theorem FailsOnly.bind {next : First → Except Fault Second} (only : FailsOnly kind outcome)
    (later : ∀ result, outcome = .ok result → FailsOnly kind (next result)) :
    FailsOnly kind (outcome >>= next) := by
  cases outcome with
  | error fault => exact failsOnly_error (only fault rfl)
  | ok result => exact later result rfl

theorem FailsOnly.map (only : FailsOnly kind outcome) (change : First → Second) :
    FailsOnly kind (outcome.map change) := by
  cases outcome with
  | error fault => exact failsOnly_error (only fault rfl)
  | ok result => exact failsOnly_ok _

theorem FailsOnly.of_map_eq {Shown : Type} {same : Except Fault Second} {showFirst : First → Shown}
    {showSecond : Second → Shown} (only : FailsOnly kind outcome)
    (looks : same.map showSecond = outcome.map showFirst) : FailsOnly kind same := by
  rintro fault rfl
  cases outcome with
  | error found =>
      cases looks
      exact only _ rfl
  | ok result => cases looks

theorem failsOnly_mapM {change : First → Except Fault Second} {items : List First}
    (each : ∀ item ∈ items, FailsOnly kind (change item)) : FailsOnly kind (items.mapM change) := by
  induction items with
  | nil => exact failsOnly_ok []
  | cons item rest ih =>
      rw [List.forall_mem_cons] at each
      rw [List.mapM_cons]
      exact each.1.bind fun _ _ => (ih each.2).bind fun _ _ => failsOnly_ok _

end Outcomes

/-! Look-ups. -/

section Schema

variable (schema : Schema)

theorem Schema.entity_fails (name : String) : FailsOnly Fault.OfSchema (schema.entity name) := by
  unfold Schema.entity
  split
  · exact failsOnly_ok _
  · exact failsOnly_error (Or.inl rfl)

theorem Schema.relation_fails (entityName name : String) :
    FailsOnly Fault.OfSchema (schema.relation entityName name) := by
  refine (schema.entity_fails entityName).bind fun entity _ => ?_
  split
  · exact failsOnly_ok _
  · exact failsOnly_error (Or.inl rfl)

theorem Schema.column_fails (entityName attributeName : String) :
    FailsOnly Fault.OfSchema (schema.column entityName attributeName) := by
  refine (schema.entity_fails entityName).bind fun entity _ => ?_
  split
  · exact failsOnly_ok _
  · exact failsOnly_error (Or.inl rfl)

theorem Join.keyColumns_fails (relation : Relation) (parent related : Entity) :
    FailsOnly Fault.OfSchema (Join.keyColumns relation parent related) := by
  unfold Join.keyColumns
  split
  · exact failsOnly_error (Or.inr rfl)
  · simp only
    split
    · exact failsOnly_ok _
    · exact failsOnly_error (Or.inr rfl)

theorem Hop.of_fails (relation : Relation) (parent related : Entity) :
    FailsOnly Fault.OfSchema (Hop.of relation parent related) := by
  unfold Hop.of
  split
  · exact failsOnly_ok _
  · exact (Join.keyColumns_fails relation parent related).map _

theorem Schema.hop_fails (entityName relationName : String) :
    FailsOnly Fault.OfSchema (schema.graph.hop entityName relationName) := by
  refine (schema.relation_fails entityName relationName).bind fun relation _ => ?_
  refine (schema.entity_fails entityName).bind fun parent _ => ?_
  refine (schema.entity_fails relation.related).bind fun related _ => ?_
  exact Hop.of_fails relation parent related

theorem Schema.lead_fails (path : List String) (entity : Entity) :
    FailsOnly Fault.OfSchema (schema.graph.lead entity path) := by
  induction path generalizing entity with
  | nil => exact failsOnly_ok entity
  | cons relation rest ih =>
      exact (schema.hop_fails entity.name relation).bind fun hop _ => ih hop.related

theorem Leaf.aim_fails (names : PropertyMap) (entityName : String) (leaf : Leaf) :
    FailsOnly Fault.OfSchema (leaf.aim schema names entityName) := by
  unfold Leaf.aim
  split
  · refine (schema.hop_fails entityName _).bind fun hop _ => ?_
    split
    · exact (schema.column_fails _ _).map _
    · exact (schema.entity_fails _).map _
  · exact (schema.column_fails _ _).map _

end Schema

/-! Joins. -/

namespace JoinPlan

variable {schema : Schema} {root : Entity} {scope : JoinScope} {names : PropertyMap}
  {plan : JoinPlan}

theorem Grown.plan_fails (grown : Grown schema root scope plan) (leaf : Leaf) :
    FailsOnly Fault.OfSchema (plan.plan schema names leaf.joinSegments leaf.group).2 :=
  (schema.lead_fails _ root).of_map_eq (plan_entity grown names _ _)

theorem planLeaves_fails {leaves : List Leaf} (grown : Grown schema root scope plan) :
    FailsOnly Fault.OfSchema (plan.planLeaves schema names leaves) := by
  induction leaves generalizing plan with
  | nil => exact failsOnly_ok plan
  | cons leaf rest ih =>
      rw [planLeaves_step]
      exact (grown.plan_fails leaf).bind fun _ _ => ih (plan_grown grown names _ _)

def Answered (graph : RelationGraph) (root : Entity) (scope : JoinScope) (asked : List PathRequest)
    (request : PathRequest) : Prop :=
  ∃ before after target, asked = before ++ request :: after ∧
    ((planAll graph (.new root scope) before).plan graph request.names request.segments
      request.group).2 = .ok target

end JoinPlan

/-! Conditions. -/

namespace Planned

variable {planned : Planned} {leaf : Leaf} {kind : Fault → Prop}

def Finds (planned : Planned) (leaf : Leaf) : Prop :=
  ∃ target, planned.plan.target planned.names leaf.joinSegments leaf.group = .ok target

theorem onColumn_of_accepted (accepted : leaf.Accepted) (column : ColumnRef) :
    ∃ condition, onColumn leaf column = .ok condition := by
  unfold Leaf.Accepted at accepted
  unfold onColumn
  cases operator : leaf.operator with
  | isIn =>
      rw [operator] at accepted
      cases value : leaf.value with
      | list values => exact ⟨_, rfl⟩
      | _ =>
          rw [value] at accepted
          cases accepted
  | like =>
      rw [operator] at accepted
      cases value : leaf.value with
      | text pattern => exact ⟨_, rfl⟩
      | _ =>
          rw [value] at accepted
          cases accepted
  | _ => exact ⟨_, rfl⟩

theorem condition_of_accepted (accepted : leaf.Accepted) (aim : Aim) (binding : String)
    (number : Nat) : ∃ condition, aim.condition leaf binding number = .ok condition := by
  cases aim with
  | own column => exact onColumn_of_accepted accepted _
  | member hop column => exact ⟨_, rfl⟩

theorem buildLeaf_fails {schema : Schema} {names : PropertyMap} {plan : JoinPlan}
    (finds : (Planned.mk schema names plan).Finds leaf) (accepted : leaf.Accepted)
    (subqueries : Nat) :
    FailsOnly Fault.OfSchema ((Planned.mk schema names plan).buildLeaf leaf subqueries).1 := by
  obtain ⟨target, reached⟩ := finds
  rw [buildLeaf_eq _ leaf subqueries reached]
  refine (leaf.aim_fails schema names target.entity).bind fun aim _ => ?_
  obtain ⟨condition, compiled⟩ := condition_of_accepted accepted aim target.binding (subqueries + 1)
  rw [compiled]
  exact failsOnly_ok condition

mutual

theorem build_fails : (node : Node) →
    (∀ leaf ∈ node.leaves, ∀ subqueries, FailsOnly kind (planned.buildLeaf leaf subqueries).1) →
      ∀ subqueries, FailsOnly kind (planned.build node subqueries).1
  | .leaf leaf, each, subqueries => each leaf (List.mem_singleton_self _) subqueries
  | .composite combinator first rest, each, subqueries => by
      intro fault failed
      rcases (build_composite_error planned combinator first rest subqueries fault).mp failed with
        here | ⟨_, _, later⟩
      · exact build_fails first
          (fun leaf held => each leaf (List.mem_append_left _ held)) _ fault here
      · exact buildGroups_fails rest (fun leaf held => each leaf (List.mem_append_right _ held)) _
          fault later

theorem buildGroups_fails : (nodes : List Node) →
    (∀ leaf ∈ Node.leavesOfAll nodes, ∀ subqueries,
      FailsOnly kind (planned.buildLeaf leaf subqueries).1) →
      ∀ subqueries, FailsOnly kind (planned.buildGroups nodes subqueries).1
  | [], _, _ => failsOnly_ok []
  | node :: rest, each, subqueries => by
      intro fault failed
      rcases (buildGroups_cons_error planned node rest subqueries fault).mp failed with
        here | ⟨_, _, later⟩
      · exact build_fails node
          (fun leaf held => each leaf (List.mem_append_left _ held)) _ fault here
      · exact buildGroups_fails rest (fun leaf held => each leaf (List.mem_append_right _ held)) _
          fault later

end

end Planned

/-! Filters. -/

theorem FieldPath.parse_fails (text : String) :
    FailsOnly Fault.Foreseen (FieldPath.parse text) := by
  unfold parse
  simp only
  split
  · exact failsOnly_error nofun
  · exact failsOnly_ok _

theorem Leaf.of_fails (field : String) (operator : Operator) (value : Value) (group : String) :
    FailsOnly Fault.Foreseen (Leaf.of field operator value group) := by
  refine (FieldPath.parse_fails field).bind fun path _ => ?_
  simp only
  split
  · exact failsOnly_ok _
  · exact failsOnly_error nofun

theorem Combinator.parse_fails (symbol : String) :
    FailsOnly Fault.Foreseen (Combinator.parse symbol) := by
  unfold parse
  split
  · exact failsOnly_ok _
  · exact failsOnly_error nofun

namespace Node

variable {standard : String}

theorem leafOfRaw_fails (field op group : String) (json : Json) :
    FailsOnly Fault.Foreseen (leafOfRaw field op json group) := by
  unfold leafOfRaw
  split
  · exact failsOnly_error nofun
  · split
    · exact failsOnly_error nofun
    · exact Leaf.of_fails field _ _ group

mutual

theorem ofRaw_fails : (entry : RawFilter) → FailsOnly Fault.Foreseen (ofRaw standard entry)
  | .leaf field op json own => by
      rw [ofRaw]
      exact (leafOfRaw_fails field op (own.getD standard) json).map Node.leaf
  | .composite op [] => failsOnly_error nofun
  | .composite op (first :: rest) => by
      rw [ofRaw]
      refine (Combinator.parse_fails op).bind fun combinator _ => ?_
      refine (ofRaw_fails first).bind fun node _ => ?_
      exact (ofRawAll_fails rest).bind fun nodes _ => failsOnly_ok _

theorem ofRawAll_fails : (entries : List RawFilter) →
    FailsOnly Fault.Foreseen (ofRawAll standard entries)
  | [] => failsOnly_ok []
  | entry :: rest => by
      rw [ofRawAll]
      refine (ofRaw_fails entry).bind fun node _ => ?_
      exact (ofRawAll_fails rest).bind fun nodes _ => failsOnly_ok _

end

end Node

/-! Requests. -/

theorem DirectionRequest.flags_fails (directions : DirectionRequest) (keyCount : Nat) :
    FailsOnly Fault.Foreseen (directions.flags keyCount) := by
  cases directions with
  | every descending => exact failsOnly_ok _
  | joined tokens =>
      refine failsOnly_mapM fun token _ => ?_
      unfold readFlag
      split
      · exact failsOnly_ok _
      · exact failsOnly_error nofun
  | listed flags => exact failsOnly_ok _

theorem Request.read_fails (text : String) : FailsOnly Fault.Foreseen (Request.read text) := by
  unfold Request.read
  split
  · exact failsOnly_ok _
  · exact failsOnly_error nofun

namespace Assembler

variable (assembler : Assembler)

theorem orderClauses_fails (root : Entity) (names : PropertyMap) (sort : SortRequest)
    (directions : DirectionRequest) :
    FailsOnly Fault.Foreseen (assembler.orderClauses root names sort directions) := by
  refine (directions.flags_fails sort.keys.length).bind fun flags _ => ?_
  split
  · refine failsOnly_mapM fun key _ => ?_
    have named := (assembler.schema.column_fails root.name (key.1.resolve names)).imp
      Fault.OfSchema.foreseen
    exact named.bind fun column _ => failsOnly_ok _
  · exact failsOnly_error nofun

/-- Accepted conditions are planned first, so all that can go wrong with them lies in the schema. -/
theorem joinsAndCondition_fails (root : Entity) (names : PropertyMap) {nodes : List Node}
    (accepted : ∀ leaf ∈ Node.leavesOfAll nodes, leaf.Accepted) :
    FailsOnly Fault.OfSchema (assembler.joinsAndCondition root names (tree nodes)) := by
  cases tied : tree nodes with
  | none => exact failsOnly_ok _
  | some node =>
      rw [← leaves_tree tied] at accepted
      have atStart : JoinPlan.Grown assembler.schema root assembler.settings.joinScope _ := .start
      refine (JoinPlan.planLeaves_fails atStart).bind fun joined planned => ?_
      have covers := JoinPlan.planLeaves_covers atStart planned
      refine FailsOnly.bind (Planned.build_fails node ?_ 0) fun condition _ => failsOnly_ok _
      intro leaf held
      exact Planned.buildLeaf_fails (covers.target_ok held) (accepted leaf held)

theorem assemble_fails (rootName : String) (request : Request) :
    FailsOnly Fault.Foreseen (assembler.assemble rootName request) := by
  refine (Node.ofRawAll_fails request.filters).bind fun nodes read => ?_
  refine ((assembler.schema.entity_fails rootName).imp Fault.OfSchema.foreseen).bind
    fun root _ => ?_
  have built := assembler.joinsAndCondition_fails root (assembler.effectiveNames request.names)
    (Node.accepted_ofRawAll request.filters read)
  refine (built.imp Fault.OfSchema.foreseen).bind fun both _ => ?_
  exact (assembler.orderClauses_fails root _ request.sort request.directions).bind
    fun clauses _ => failsOnly_ok _

theorem assembleText_fails (rootName text : String) :
    FailsOnly Fault.Foreseen (assembler.assembleText rootName text) :=
  (Request.read_fails text).bind fun request _ => assembler.assemble_fails rootName request

/-- No request makes the compiler fail by itself. Once filters are read and the paths of their
conditions are planned, in whatever run of requests, the plan leads each of them to its target, its
value compiles on every column, and what can go wrong with a tree of them lies in the schema. -/
theorem never_internal (rootName : String) :
    (∀ request, FailsOnly Fault.Foreseen (assembler.assemble rootName request)) ∧
      (∀ text, FailsOnly Fault.Foreseen (assembler.assembleText rootName text)) ∧
      ∀ (standard : String) (filters : List RawFilter) (nodes : List Node) (root : Entity)
        (scope : JoinScope) (names : PropertyMap) (asked : List PathRequest),
        Node.ofRawAll standard filters = .ok nodes →
        (∀ leaf ∈ Node.leavesOfAll nodes, JoinPlan.Answered assembler.schema root scope asked
          ⟨names, leaf.joinSegments, leaf.group⟩) →
        let planned : Planned :=
          ⟨assembler.schema, names, JoinPlan.planAll assembler.schema (.new root scope) asked⟩
        (∀ leaf ∈ Node.leavesOfAll nodes, planned.Finds leaf ∧
          ∀ column, ∃ condition, Planned.onColumn leaf column = .ok condition) ∧
        ∀ node : Node, node.leaves ⊆ Node.leavesOfAll nodes →
          ∀ subqueries, FailsOnly Fault.OfSchema (planned.build node subqueries).1 := by
  refine ⟨assembler.assemble_fails rootName, assembler.assembleText_fails rootName, ?_⟩
  intro standard filters nodes root scope names asked read answered
  have accepted := Node.accepted_ofRawAll filters read
  have finds : ∀ leaf ∈ Node.leavesOfAll nodes, Planned.Finds ⟨assembler.schema, names,
      JoinPlan.planAll assembler.schema (.new root scope) asked⟩ leaf := by
    intro leaf held
    obtain ⟨before, after, target, rfl, planned⟩ := answered leaf held
    exact ⟨target, JoinPlan.planAll_answers before _ after planned⟩
  refine ⟨fun leaf held => ⟨finds leaf held, Planned.onColumn_of_accepted (accepted leaf held)⟩, ?_⟩
  intro node among subqueries
  refine Planned.build_fails node (fun leaf held => ?_) subqueries
  exact Planned.buildLeaf_fails (finds leaf (among held)) (accepted leaf (among held))

/-- Toys have no color. The path is planned all the same, and only the condition fails. -/
theorem color_unresolved : ∃ nodes root node fault,
    Node.ofRawAll "__default__" [Shelter.asks "toys.color" "=" "red"] = .ok nodes ∧
      Shelter.schema.entity "Pet" = .ok root ∧ tree nodes = some node ∧
        ((Planned.mk Shelter.schema ⟨.empty⟩ (JoinPlan.planAll Shelter.schema (.new root .global)
          [⟨⟨.empty⟩, ["toys"], "other"⟩, ⟨⟨.empty⟩, ["toys"], "__default__"⟩])).build node 0).1 =
            .error fault ∧ fault.OfSchema := by
  let asked : List PathRequest :=
    [⟨⟨.empty⟩, ["toys"], "other"⟩, ⟨⟨.empty⟩, ["toys"], "__default__"⟩]
  obtain ⟨nodes, root, node, fault, read, rooted, tied, answered, failed⟩ : ∃ nodes root node fault,
      Node.ofRawAll "__default__" [Shelter.asks "toys.color" "=" "red"] = .ok nodes ∧
        Shelter.schema.entity "Pet" = .ok root ∧ tree nodes = some node ∧
        (∀ leaf ∈ Node.leavesOfAll nodes, JoinPlan.Answered Shelter.schema root .global asked
          ⟨⟨.empty⟩, leaf.joinSegments, leaf.group⟩) ∧
        ((Planned.mk Shelter.schema ⟨.empty⟩ (JoinPlan.planAll Shelter.schema (.new root .global)
          asked)).build node 0).1 = .error fault :=
    ⟨_, _, _, _, rfl, rfl, rfl, List.forall_mem_singleton.mpr ⟨asked.take 1, [], _, rfl, rfl⟩, rfl⟩
  obtain ⟨_, _, planned⟩ := never_internal Shelter.assembler "Pet"
  obtain ⟨_, fails⟩ := planned _ _ nodes root .global ⟨.empty⟩ asked read answered
  refine ⟨nodes, root, node, fault, read, rooted, tied, failed, fails node ?_ 0 fault failed⟩
  rw [leaves_tree tied]
  exact List.Subset.refl _

end Assembler

end FilterQuery
