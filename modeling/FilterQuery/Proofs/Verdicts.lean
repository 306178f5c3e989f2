import FilterQuery.Proofs.Faults
import FilterQuery.Proofs.Regrouping

/-!
Why a request fails. A path that is joined already was found to lead somewhere, so what is planned
before it changes neither whether it can be planned nor the fault. Main statement: a tree cannot be
planned for the reason of its first condition that cannot be planned alone, and a request fails or
does not whatever the groups of its conditions are.
-/

namespace FilterQuery

section Outcomes

variable {First Second Third Fourth : Type}

def faultOf : Except Fault First → Option Fault
  | .ok _ => none
  | .error fault => some fault

theorem faultOf_eq_some {outcome : Except Fault First} {fault : Fault} :
    faultOf outcome = some fault ↔ outcome = .error fault := by
  cases outcome <;> simp [faultOf]

theorem faultOf_eq_none {outcome : Except Fault First} :
    faultOf outcome = none ↔ ∃ result, outcome = .ok result := by
  cases outcome <;> simp [faultOf]

theorem faultOf_map (outcome : Except Fault First) (change : First → Second) :
    faultOf (outcome.map change) = faultOf outcome := by
  cases outcome <;> rfl

theorem faultOf_eq_of_map {Shown : Type} {outcome : Except Fault First}
    {other : Except Fault Second} {showFirst : First → Shown} {showSecond : Second → Shown}
    (looks : outcome.map showFirst = other.map showSecond) : faultOf outcome = faultOf other := by
  rw [← faultOf_map outcome showFirst, looks, faultOf_map]

theorem faultOf_bind {outcome : Except Fault First} {next : First → Except Fault Second}
    {later : Option Fault} (same : ∀ result, outcome = .ok result → faultOf (next result) = later) :
    faultOf (outcome >>= next) = (faultOf outcome).or later := by
  cases outcome with
  | error fault => rfl
  | ok result => exact same result rfl

theorem faultOf_bind_eq {outcome : Except Fault First} {other : Except Fault Second}
    {next : First → Except Fault Third} {following : Second → Except Fault Fourth}
    (same : faultOf outcome = faultOf other)
    (later : ∀ {result second}, outcome = .ok result → other = .ok second →
      faultOf (next result) = faultOf (following second)) :
    faultOf (outcome >>= next) = faultOf (other >>= following) := by
  cases outcome <;> cases other <;> cases same
  · rfl
  · exact later rfl rfl

end Outcomes

/-! Planning. -/

namespace JoinPlan

variable {graph : RelationGraph} {root : Entity} {scope : JoinScope} {names : PropertyMap}
  {plan : JoinPlan}

def alone (graph : RelationGraph) (names : PropertyMap) (root : Entity) (scope : JoinScope)
    (leaf : Leaf) : Except Fault Target :=
  ((new root scope).plan graph names leaf.joinSegments leaf.group).2

theorem Grown.faultOf_plan (grown : Grown graph root scope plan) (leaf : Leaf) :
    faultOf (plan.plan graph names leaf.joinSegments leaf.group).2 =
      faultOf (graph.lead root (leaf.trail names)) :=
  faultOf_eq_of_map (plan_entity grown names leaf.joinSegments leaf.group)

theorem Grown.faultOf_planLeaves (grown : Grown graph root scope plan) (leaves : List Leaf) :
    faultOf (plan.planLeaves graph names leaves) =
      leaves.findSome? fun leaf => faultOf (graph.lead root (leaf.trail names)) := by
  induction leaves generalizing plan with
  | nil => rfl
  | cons leaf rest ih =>
      have inRest := ih (plan_grown grown names leaf.joinSegments leaf.group)
      rw [planLeaves_step, faultOf_bind fun _ _ => inRest, grown.faultOf_plan, List.findSome?_cons]
      cases faultOf (graph.lead root (leaf.trail names)) <;> rfl

theorem faultOf_planLeaves_new (graph : RelationGraph) (names : PropertyMap) (root : Entity)
    (scope : JoinScope) (leaves : List Leaf) :
    faultOf ((new root scope).planLeaves graph names leaves) =
      leaves.findSome? fun leaf => faultOf (alone graph names root scope leaf) := by
  have same (leaf : Leaf) : faultOf (alone graph names root scope leaf) = _ :=
    Grown.start.faultOf_plan leaf
  simp only [Grown.start.faultOf_planLeaves, same]

theorem planLeaves_error_iff (graph : RelationGraph) (names : PropertyMap) (root : Entity)
    (scope : JoinScope) (leaves : List Leaf) (fault : Fault) :
    (new root scope).planLeaves graph names leaves = .error fault ↔
      ∃ before leaf after, leaves = before ++ leaf :: after ∧
        (∀ earlier ∈ before, ∃ target, alone graph names root scope earlier = .ok target) ∧
          alone graph names root scope leaf = .error fault := by
  rw [← faultOf_eq_some, faultOf_planLeaves_new, List.findSome?_eq_some_iff]
  simp only [faultOf_eq_some, faultOf_eq_none, and_comm]

theorem planLeaves_fails_iff (graph : RelationGraph) (names : PropertyMap) (root : Entity)
    (scope : JoinScope) (leaves : List Leaf) :
    (∃ fault, (new root scope).planLeaves graph names leaves = .error fault) ↔
      ∃ leaf ∈ leaves, ∃ fault, alone graph names root scope leaf = .error fault := by
  simp only [← faultOf_eq_some, faultOf_planLeaves_new, ← Option.isSome_iff_exists,
    List.findSome?_isSome_iff]

end JoinPlan

/-! Compiling. -/

def Leaf.aimFrom (graph : RelationGraph) (names : PropertyMap) (root : Entity) (leaf : Leaf) :
    Except Fault Aim := do
  let entity ← graph.lead root (leaf.trail names)
  leaf.aim graph names entity.name

theorem JoinPlan.Covers.faultOf_buildLeaf {graph : RelationGraph} {root : Entity}
    {scope : JoinScope} {names : PropertyMap} {leaves : List Leaf} {joined : JoinPlan}
    (covers : Covers graph root scope names leaves (.new root scope) joined) {leaf : Leaf}
    (held : leaf ∈ leaves) (accepted : leaf.Accepted) (subqueries : Nat) :
    faultOf ((Planned.mk graph names joined).buildLeaf leaf subqueries).1 =
      faultOf (leaf.aimFrom graph names root) := by
  obtain ⟨target, entity, _, led, same⟩ := covers.buildLeaf_eq held
  rw [same, Leaf.aimFrom, led]
  cases aimed : leaf.aim graph names entity.name with
  | error fault =>
      simp only [bind, Except.bind, aimed]
      rfl
  | ok aim =>
      obtain ⟨condition, compiled⟩ :=
        Planned.condition_of_accepted accepted aim target.binding (subqueries + 1)
      simp only [bind, Except.bind, aimed, compiled]
      rfl

namespace Planned

variable {planned : Planned} {verdict : Leaf → Option Fault}

theorem faultOf_buildGroups_cons {first : Node} {rest : List Node} {subqueries : Nat}
    {head tail : Option Fault} (inFirst : faultOf (planned.build first subqueries).1 = head)
    (inRest : ∀ later, faultOf (planned.buildGroups rest later).1 = tail) :
    faultOf (planned.buildGroups (first :: rest) subqueries).1 = head.or tail := by
  rw [buildGroups, ← inFirst]
  rcases planned.build first subqueries with ⟨_ | condition, after⟩
  · rfl
  · rw [← inRest after]
    simp only
    rcases planned.buildGroups rest after with ⟨_ | conditions, last⟩ <;> rfl

theorem faultOf_build_composite (combinator : Combinator) (first : Node) (rest : List Node)
    (subqueries : Nat) :
    faultOf (planned.build (.composite combinator first rest) subqueries).1 =
      faultOf (planned.buildGroups (first :: rest) subqueries).1 := by
  rw [build, buildGroups]
  rcases planned.build first subqueries with ⟨_ | condition, after⟩
  · rfl
  · simp only
    rcases planned.buildGroups rest after with ⟨_ | conditions, last⟩ <;> rfl

mutual

theorem faultOf_build : (node : Node) →
    (∀ leaf ∈ node.leaves, ∀ subqueries, faultOf (planned.buildLeaf leaf subqueries).1 =
      verdict leaf) →
      ∀ subqueries, faultOf (planned.build node subqueries).1 = node.leaves.findSome? verdict
  | .leaf leaf, each, subqueries => by
      rw [build, each leaf (List.mem_singleton_self _), Node.leaves, List.findSome?_singleton]
  | .composite combinator first rest, each, subqueries => by
      have inFirst :=
        faultOf_build first (fun leaf held => each leaf (List.mem_append_left _ held)) subqueries
      have inRest := faultOf_buildGroups rest fun leaf held =>
        each leaf (List.mem_append_right _ held)
      rw [faultOf_build_composite, faultOf_buildGroups_cons inFirst inRest, Node.leaves,
        List.findSome?_append]

theorem faultOf_buildGroups : (nodes : List Node) →
    (∀ leaf ∈ Node.leavesOfAll nodes, ∀ subqueries,
      faultOf (planned.buildLeaf leaf subqueries).1 = verdict leaf) →
      ∀ subqueries, faultOf (planned.buildGroups nodes subqueries).1 =
        (Node.leavesOfAll nodes).findSome? verdict
  | [], _, _ => rfl
  | node :: rest, each, subqueries => by
      have inFirst :=
        faultOf_build node (fun leaf held => each leaf (List.mem_append_left _ held)) subqueries
      have inRest := faultOf_buildGroups rest fun leaf held =>
        each leaf (List.mem_append_right _ held)
      rw [faultOf_buildGroups_cons inFirst inRest, Node.leavesOfAll, List.findSome?_append]

end

end Planned

/-! Requests. -/

section Grouping

variable {first second : List Leaf} {verdict : Leaf → Option Fault}

theorem findSome?_eq_of_inGroup (same : first.map (Leaf.inGroup "") = second.map (Leaf.inGroup ""))
    (ungrouped : ∀ leaf, verdict (leaf.inGroup "") = verdict leaf) :
    first.findSome? verdict = second.findSome? verdict := by
  have regrouped (leaves : List Leaf) :
      (leaves.map (Leaf.inGroup "")).findSome? verdict = leaves.findSome? verdict := by
    simp only [List.findSome?_map, Function.comp_def, ungrouped]
  rw [← regrouped first, same, regrouped]

end Grouping

namespace Assembler

/-- Accepted conditions are planned in their order, and then compiled in the same order. -/
theorem faultOf_joinsAndCondition (assembler : Assembler) (root : Entity) (names : PropertyMap)
    {nodes : List Node} (accepted : ∀ leaf ∈ Node.leavesOfAll nodes, leaf.Accepted) :
    faultOf (assembler.joinsAndCondition root names (tree nodes)) =
      ((Node.leavesOfAll nodes).findSome? fun leaf =>
          faultOf (assembler.schema.graph.lead root (leaf.trail names))).or
        ((Node.leavesOfAll nodes).findSome? fun leaf =>
          faultOf (leaf.aimFrom assembler.schema names root)) := by
  cases tied : tree nodes with
  | none =>
      rw [eq_nil_of_tree tied]
      rfl
  | some node =>
      rw [← leaves_tree tied] at accepted ⊢
      have atStart : JoinPlan.Grown assembler.schema root assembler.settings.joinScope _ := .start
      rw [← atStart.faultOf_planLeaves]
      refine faultOf_bind fun joined planned => ?_
      have covers := JoinPlan.planLeaves_covers atStart planned
      rw [← Planned.faultOf_build node
        (fun leaf held => covers.faultOf_buildLeaf held (accepted leaf held)) 0]
      rcases (Planned.mk assembler.schema names joined).build node 0
        with ⟨_ | condition, last⟩ <;> rfl

variable {schema : Schema} {settings other : Settings}

theorem faultOf_assembleNodes {first second : List Node} (rootName : String)
    (sameNames : other.names = settings.names)
    (accepted : ∀ leaf ∈ Node.leavesOfAll first, leaf.Accepted)
    (acceptedSecond : ∀ leaf ∈ Node.leavesOfAll second, leaf.Accepted)
    (same : Node.changedAll (Leaf.inGroup "") first = Node.changedAll (Leaf.inGroup "") second)
    (given : Option PropertyMap) (sort : SortRequest) (directions : DirectionRequest) :
    faultOf ((Assembler.mk schema settings).assembleNodes rootName first given sort directions) =
      faultOf ((Assembler.mk schema other).assembleNodes rootName second given sort
        directions) := by
  have sameLeaves := congrArg Node.leavesOfAll same
  rw [Node.leavesOfAll_changedAll, Node.leavesOfAll_changedAll] at sameLeaves
  have effective : (Assembler.mk schema other).effectiveNames given =
      (Assembler.mk schema settings).effectiveNames given := by
    simp only [effectiveNames, sameNames]
  simp only [assembleNodes, effective]
  refine faultOf_bind_eq rfl fun {root _} known sameKnown => ?_
  cases known.symm.trans sameKnown
  refine faultOf_bind_eq ?_ fun _ _ => ?_
  · rw [faultOf_joinsAndCondition _ root _ accepted,
      faultOf_joinsAndCondition _ root _ acceptedSecond]
    congr 1
    · exact findSome?_eq_of_inGroup sameLeaves fun _ => rfl
    · exact findSome?_eq_of_inGroup sameLeaves fun _ => rfl
  · exact faultOf_bind_eq rfl fun _ _ => rfl

theorem faultOf_assemble (rootName : String) (request : Request) {filters : List RawFilter}
    (sameNames : other.names = settings.names)
    (same : RawFilter.regroupedAll none request.filters = RawFilter.regroupedAll none filters) :
    faultOf ((Assembler.mk schema settings).assemble rootName request) =
      faultOf ((Assembler.mk schema other).assemble rootName (request.withFilters filters)) := by
  have sameNodes := congrArg (Node.ofRawAll "") same
  rw [Node.ofRawAll_regrouped "" settings.defaultGroup none,
    Node.ofRawAll_regrouped "" other.defaultGroup none] at sameNodes
  refine faultOf_bind_eq (faultOf_eq_of_map sameNodes) ?_
  intro first second (read : Node.ofRawAll settings.defaultGroup request.filters = .ok first)
    (readSecond : Node.ofRawAll other.defaultGroup filters = .ok second)
  rw [read, readSecond] at sameNodes
  exact faultOf_assembleNodes rootName sameNames (Node.accepted_ofRawAll _ read)
    (Node.accepted_ofRawAll _ readSecond) (Except.ok.inj sameNodes) _ _ _

/-- What is joined already changes neither whether something fails nor why. A tree cannot be planned
exactly when one of its conditions cannot be planned alone, and then for the reason of the first
such condition; and requests whose conditions differ in their groups only are both assembled or fail
with the same fault, whatever the scope, the default group and the dialect. -/
theorem fails_alike (schema : Schema) :
    (∀ (names : PropertyMap) (root : Entity) (scope : JoinScope) (node : Node),
      let planned := (JoinPlan.new root scope).planLeaves schema names node.leaves
      let alone := JoinPlan.alone schema names root scope
      ((∃ fault, planned = .error fault) ↔
        ∃ leaf ∈ node.leaves, ∃ fault, alone leaf = .error fault) ∧
        ∀ fault, planned = .error fault ↔
          ∃ before leaf after, node.leaves = before ++ leaf :: after ∧
            (∀ earlier ∈ before, ∃ target, alone earlier = .ok target) ∧
            alone leaf = .error fault) ∧
      ∀ (settings : Settings) (joinScope : JoinScope) (defaultGroup : String) (dialect : Dialect)
        (rootName : String) (request : Request) (filters : List RawFilter),
        RawFilter.regroupedAll none request.filters = RawFilter.regroupedAll none filters →
        let first := (Assembler.mk schema settings).assemble rootName request
        let second := (Assembler.mk schema
          { settings with
            joinScope := joinScope
            defaultGroup := defaultGroup
            dialect := dialect }).assemble rootName (request.withFilters filters)
        ((∃ plan, first = .ok plan) ∧ ∃ plan, second = .ok plan) ∨
          ∃ fault, first = .error fault ∧ second = .error fault := by
  constructor
  · intro names root scope node planned alone
    exact ⟨JoinPlan.planLeaves_fails_iff _ names root scope _,
      JoinPlan.planLeaves_error_iff _ names root scope _⟩
  · intro settings joinScope defaultGroup dialect rootName request filters
      sameConditions first second
    have same : faultOf first = faultOf second :=
      faultOf_assemble rootName request rfl sameConditions
    cases failed : faultOf first with
    | none => exact .inl ⟨faultOf_eq_none.mp failed, faultOf_eq_none.mp (same ▸ failed)⟩
    | some fault =>
        exact .inr ⟨fault, faultOf_eq_some.mp failed, faultOf_eq_some.mp (same ▸ failed)⟩

end Assembler

/-- A ball, and a toy with a bell among its parts. Toys have no parts. -/
def Shelter.belled (first second : Option String) : List RawFilter :=
  [.leaf "toys.name" "=" (.text "ball") first, .leaf "toys.parts.name" "=" (.text "bell") second]

/-- The toys are joined once for each group in the first run, and once in all in the second. -/
theorem Assembler.belled_fail_alike : ∃ fault,
    Shelter.assembler.assemble "Pet" { filters := Shelter.belled (some "ball") (some "bell") } =
      .error fault ∧
      (Assembler.mk Shelter.schema
          { joinScope := .global, defaultGroup := "", dialect := .sqlite }).assemble "Pet"
        { filters := Shelter.belled none (some "bell") } = .error fault := by
  let request : Request := { filters := Shelter.belled (some "ball") (some "bell") }
  obtain ⟨fault, failed⟩ : ∃ fault, Shelter.assembler.assemble "Pet" request = .error fault :=
    ⟨_, rfl⟩
  obtain ⟨_, alike⟩ := fails_alike Shelter.schema
  rcases alike {} .global "" .sqlite "Pet" request (Shelter.belled none (some "bell")) rfl with
    ⟨⟨plan, made⟩, _⟩ | ⟨_, here, there⟩
  · cases failed.symm.trans made
  · cases failed.symm.trans here
    exact ⟨fault, failed, there⟩

end FilterQuery
