import FilterQuery.Proofs.PlanningOrder

/-!
What a path that cannot be planned to its end leaves behind. Planning never takes a step back, so
the plan keeps the joins before the relation that stopped it, and these are sound: nothing else has
changed, and the same path stops at the same relation again. Main statement: this is so for every
plan that calls have led to, failed ones among them.
-/

namespace FilterQuery

theorem Join.binding_of_resolve {graph : RelationGraph} {parent : Target} {relation : Relation}
    {binding : String} {join : Join} (resolved : resolve graph parent relation binding = .ok join) :
    join.binding = binding := by
  rw [Hop.resolve_eq] at resolved
  obtain ⟨_, _, resolved⟩ := bind_ok_iff.mp resolved
  obtain ⟨_, _, resolved⟩ := bind_ok_iff.mp resolved
  obtain ⟨_, _, resolved⟩ := bind_ok_iff.mp resolved
  cases resolved
  rfl

namespace JoinPlan

/-- Plans that calls lead to, whether or not they fail. Each call comes with a graph and names of
its own. -/
inductive Called (root : Entity) (scope : JoinScope) : JoinPlan → Prop where
  | start : Called root scope (.new root scope)
  | call {plan : JoinPlan} (before : Called root scope plan) (graph : RelationGraph)
      (request : PathRequest) :
      Called root scope (plan.plan graph request.names request.segments request.group).1

def unjoined (plan : JoinPlan) (keys : List JoinKey) : List JoinKey :=
  keys.filter fun key => (plan.joined? key).isNone

/-- The join makes a path: it follows the last relation from what the shorter path leads to, and the
path leads to its table. -/
def Makes (graph : RelationGraph) (plan : JoinPlan) (key : JoinKey) (join : Join) : Prop :=
  plan.joined? key = some join.target ∧
    ∃ path relation parent declared, key.path = path ++ [relation] ∧
      plan.reached? key.scope path = some parent ∧
      graph.relation parent.entity relation = .ok declared ∧
      Join.resolve graph parent declared join.binding = .ok join

/-- A call has stopped at a relation that cannot be followed, and has left a plan behind. The plan
has one more join for each path before the relation that was not joined, and what it had it keeps.
Nothing lies at the relation or behind it, and the same call stops there again. -/
structure StoppedAt (graph : RelationGraph) (plan : JoinPlan) (request : PathRequest)
    (before : List String) (relation : String) (fault : Fault) (after : JoinPlan) : Prop where
  stuck : ∃ parent, after.target request.names before request.group = .ok parent ∧
    after.hop graph parent (request.names.resolve relation) = .error fault
  joins : ∃ new, after.joins = plan.joins ++ new ∧
    List.Forall₂ (after.Makes graph)
      (plan.unjoined (PathRequest.keys plan.scope { request with segments := before })) new
  keys : after.keys =
    plan.keys ++ plan.unjoined (PathRequest.keys plan.scope { request with segments := before })
  keeps : ∀ {earlier : PathRequest} {target},
    plan.target earlier.names earlier.segments earlier.group = .ok target →
      after.target earlier.names earlier.segments earlier.group = .ok target
  nowhere : ∀ {longer : PathRequest},
    (longer.key plan.scope).scope = (request.key plan.scope).scope →
      (before ++ [relation]).map request.names.resolve <+: (longer.key plan.scope).path →
        after.target longer.names longer.segments longer.group =
          .error (.internal (.unplannedPath longer.segments longer.group))
  again : after.plan graph request.names request.segments request.group = (after, .error fault)

/-! Walks from any plan. -/

section Walk

variable {graph : RelationGraph} {within : String} {plan after : JoinPlan} {walked : List String}
  {current target : Target}

theorem walk_scope {path : List String} {outcome : JoinPlan × Except Fault Target}
    (ended : walk graph within plan walked current path = outcome) :
    outcome.1.scope = plan.scope := by
  subst ended
  fun_induction walk graph within plan walked current path with
  | case1 => rfl
  | case2 _ _ _ _ _ _ _ _ ih => exact ih
  | case3 => rfl
  | case4 _ _ _ _ _ _ _ _ _ ih => exact ih

theorem walk_closed (closed : plan.Closed) (reached : plan.reached? within walked = some current)
    {path : List String} {outcome : JoinPlan × Except Fault Target}
    (ended : walk graph within plan walked current path = outcome) : outcome.1.Closed := by
  subst ended
  fun_induction walk graph within plan walked current path with
  | case1 => exact closed
  | case2 plan walked current relation rest key target joined ih =>
      rw [← reached?_concat] at joined
      exact ih closed joined
  | case3 => exact closed
  | case4 plan walked current relation rest key fresh join leads ih =>
      exact ih (closed.add reached relation join) (reached?_add_self fresh join)

theorem walk_hop {relation : String} {join : Join}
    (fresh : plan.joined? ⟨within, walked ++ [relation]⟩ = none)
    (leads : plan.hop graph current relation = .ok join) (rest : List String) :
    walk graph within plan walked current (relation :: rest) =
      walk graph within (plan.add ⟨within, walked ++ [relation]⟩ join) (walked ++ [relation])
        join.target rest := by
  simp only [walk, fresh, leads]

theorem walk_append {before : List String}
    (ended : walk graph within plan walked current before = (after, .ok target))
    (rest : List String) :
    walk graph within plan walked current (before ++ rest) =
      walk graph within after (walked ++ before) target rest := by
  fun_induction walk graph within plan walked current before with
  | case1 =>
      cases ended
      rw [List.nil_append, List.append_nil]
  | case2 plan walked current relation before key next joined ih =>
      rw [List.cons_append, walk_joined graph within joined,
        List.append_cons walked relation before]
      exact ih ended
  | case3 => cases ended
  | case4 plan walked current relation before key fresh join leads ih =>
      rw [List.cons_append, walk_hop fresh leads, List.append_cons walked relation before]
      exact ih ended

theorem walk_stops {path : List String} {fault : Fault}
    (failed : walk graph within plan walked current path = (after, .error fault)) :
    ∃ before relation behind parent, path = before ++ relation :: behind ∧
      walk graph within plan walked current before = (after, .ok parent) ∧
      after.joined? ⟨within, walked ++ before ++ [relation]⟩ = none ∧
      after.hop graph parent relation = .error fault := by
  fun_induction walk graph within plan walked current path with
  | case1 => cases failed
  | case2 plan walked current relation rest key next joined ih =>
      obtain ⟨before, last, behind, parent, rfl, ended, absent, stuck⟩ := ih failed
      refine ⟨relation :: before, last, behind, parent, rfl, ?_, ?_, stuck⟩
      · rw [walk_joined graph within joined]
        exact ended
      · rw [List.append_cons walked relation before]
        exact absent
  | case3 plan walked current relation rest key fresh fault stuck =>
      cases failed
      refine ⟨[], relation, rest, current, rfl, rfl, ?_, stuck⟩
      rw [List.append_nil]
      exact fresh
  | case4 plan walked current relation rest key fresh join leads ih =>
      obtain ⟨before, last, behind, parent, rfl, ended, absent, stuck⟩ := ih failed
      refine ⟨relation :: before, last, behind, parent, rfl, ?_, ?_, stuck⟩
      · rw [walk_hop fresh leads]
        exact ended
      · rw [List.append_cons walked relation before]
        exact absent

theorem unjoined_cons_of_joined {key : JoinKey} {keys : List JoinKey}
    (joined : plan.joined? key = some target) :
    plan.unjoined (key :: keys) = plan.unjoined keys := by
  simp [unjoined, joined]

theorem unjoined_cons {key : JoinKey} {keys : List JoinKey} (fresh : plan.joined? key = none) :
    plan.unjoined (key :: keys) = key :: plan.unjoined keys := by
  simp [unjoined, fresh]

theorem unjoined_add_ahead (relation : String) (join : Join) (rest : List String) :
    (plan.add ⟨within, walked ++ [relation]⟩ join).unjoined
      (ahead within (walked ++ [relation]) rest) =
      plan.unjoined (ahead within (walked ++ [relation]) rest) := by
  apply List.filter_congr
  intro key held
  obtain ⟨last, next, rfl⟩ := mem_ahead held
  have longer : (⟨within, walked ++ [relation]⟩ : JoinKey) ≠
      ⟨within, walked ++ [relation] ++ last :: next⟩ := by simp
  rw [joined?_add, if_neg longer, Option.or_none]

theorem walk_makes {path : List String} (reached : plan.reached? within walked = some current)
    (ended : walk graph within plan walked current path = (after, .ok target)) :
    after.keys = plan.keys ++ plan.unjoined (ahead within walked path) ∧
      ∃ new, after.joins = plan.joins ++ new ∧
        List.Forall₂ (after.Makes graph) (plan.unjoined (ahead within walked path)) new := by
  fun_induction walk graph within plan walked current path with
  | case1 =>
      cases ended
      exact ⟨(List.append_nil _).symm, [], (List.append_nil _).symm, .nil⟩
  | case2 plan walked current relation rest key next joined ih =>
      rw [ahead_cons, unjoined_cons_of_joined joined]
      rw [← reached?_concat] at joined
      exact ih joined ended
  | case3 => cases ended
  | case4 plan walked current relation rest key fresh join leads ih =>
      obtain ⟨keys, new, joins, made⟩ := ih (reached?_add_self fresh join) ended
      rw [unjoined_add_ahead] at keys made
      rw [ahead_cons, unjoined_cons fresh, keys, joins, keys_add, joins_add, List.append_assoc,
        List.append_assoc]
      refine ⟨rfl, join :: new, rfl, .cons ?_ made⟩
      have kept {asked : String} {asking : List String} {found : Target}
          (held : (plan.add key join).reached? asked asking = some found) :
          after.reached? asked asking = some found :=
        walk_keeps ended held
      obtain ⟨declared, related, resolved⟩ := bind_ok_iff.mp leads
      refine ⟨?_, walked, relation, current, declared, rfl, ?_, related, ?_⟩
      · rw [← reached?_concat]
        exact kept (reached?_add_self fresh join)
      · exact kept (reached?_add_of_some reached _ _)
      · rw [Join.binding_of_resolve resolved]
        exact resolved

end Walk

/-! Calls. -/

theorem Called.closed {root : Entity} {scope : JoinScope} {plan : JoinPlan}
    (called : Called root scope plan) :
    plan.Closed := by
  induction called with
  | start => exact closed_new root scope
  | call _ graph request ih => exact walk_closed ih rfl rfl

section Stop

variable {graph : RelationGraph} {plan after : JoinPlan} {request : PathRequest}
  {before behind : List String} {relation : String} {parent : Target} {fault : Fault}

theorem stoppedAt (closed : plan.Closed) (whole : request.segments = before ++ relation :: behind)
    (ended : walk graph (plan.scope.key request.group) plan [] plan.root
      (before.map request.names.resolve) = (after, .ok parent))
    (fresh : after.joined? ⟨plan.scope.key request.group,
      before.map request.names.resolve ++ [request.names.resolve relation]⟩ = none)
    (stuck : after.hop graph parent (request.names.resolve relation) = .error fault) :
    StoppedAt graph plan request before relation fault after := by
  have sameScope : after.scope = plan.scope := walk_scope ended
  have closedAfter : after.Closed := walk_closed closed rfl ended
  have reached : after.reached? (plan.scope.key request.group) (before.map request.names.resolve) =
      some parent := walk_reached rfl ended rfl
  obtain ⟨keys, new, joins, made⟩ := walk_makes rfl ended
  constructor
  case stuck =>
    refine ⟨parent, ?_, stuck⟩
    rw [target_ok_iff, sameScope]
    exact reached
  case joins => exact ⟨new, joins, made⟩
  case keys => exact keys
  case keeps =>
    intro earlier target known
    rw [target_ok_iff] at known ⊢
    rw [sameScope]
    exact walk_keeps ended known
  case nowhere =>
    intro longer sameKey along
    obtain ⟨rest, along⟩ := along
    have unreached :
        after.reached? (longer.key plan.scope).scope (longer.key plan.scope).path = none := by
      rw [← along, sameKey, List.map_append, List.map_singleton]
      exact closedAfter.unreached fresh rest
    rw [PathRequest.key] at unreached
    rw [target_eq, sameScope, unreached]
  case again =>
    -- The call comes to the same relation by joins that are there.
    have here : walk graph (plan.scope.key request.group) after [] after.root
        (before.map request.names.resolve) = (after, .ok parent) :=
      walk_again closedAfter rfl reached
    rw [JoinPlan.plan, whole, List.map_append, List.map_cons, sameScope, walk_append here]
    simp only [walk, List.nil_append, fresh, stuck]

/-- Whatever was called before, and with whatever graphs, a call that fails leaves a plan that is
sound. -/
theorem plan_stops {root : Entity} {scope : JoinScope} (called : Called root scope plan)
    (failed : plan.plan graph request.names request.segments request.group =
      (after, .error fault)) :
    ∃ before relation behind, request.segments = before ++ relation :: behind ∧
      StoppedAt graph plan request before relation fault after := by
  obtain ⟨_, _, _, parent, along, ended, fresh, stuck⟩ := walk_stops failed
  obtain ⟨before, rest, whole, rfl, remains⟩ := List.map_eq_append_iff.mp along
  obtain ⟨relation, behind, rfl, rfl, rfl⟩ := List.map_eq_cons_iff.mp remains
  exact ⟨before, relation, behind, whole, stoppedAt called.closed whole ended fresh stuck⟩

end Stop

end JoinPlan

def Shelter.collar : PathRequest := ⟨.empty, ["toys", "owner", "collar"], "a"⟩

/-- The toys are joined already, and the call stops after it has joined their owners. -/
theorem JoinPlan.collar_stops : ∃ root plan after fault, Shelter.schema.entity "Pet" = .ok root ∧
    Called root .conditionGroup plan ∧ plan.joins.map (·.relation) = ["toys"] ∧
    plan.plan Shelter.schema Shelter.collar.names Shelter.collar.segments Shelter.collar.group =
      (after, .error fault) ∧
    after.joins.map (·.relation) = ["toys", "owner"] ∧
    ∃ before relation behind, Shelter.collar.segments = before ++ relation :: behind ∧
      StoppedAt Shelter.schema plan Shelter.collar before relation fault after := by
  obtain ⟨root, rooted⟩ : ∃ root, Shelter.schema.entity "Pet" = .ok root := ⟨_, rfl⟩
  have called : Called root .conditionGroup _ := .call .start Shelter.schema ⟨.empty, ["toys"], "a"⟩
  cases rooted
  exact ⟨_, _, _, _, rfl, called, rfl, rfl, rfl, plan_stops called rfl⟩

end FilterQuery
