import FilterQuery.Assembly
import FilterQuery.Proofs.Numbering

/-!
How a join plan grows. Planning only ever adds one join at a time, for a path whose shorter path is
joined already; what every plan has in common is proved along these steps. Main statements: a joined
path leads to the entity that its relations lead to, and a path can be planned exactly when its
relations lead somewhere, whatever was planned before.
-/

namespace FilterQuery

namespace RelationGraph

def lead (graph : RelationGraph) : Entity → List String → Except Fault Entity
  | entity, [] => .ok entity
  | entity, relation :: rest => do
      let hop ← graph.hop entity.name relation
      lead graph hop.related rest

theorem lead_append (graph : RelationGraph) (entity : Entity) (first second : List String) :
    graph.lead entity (first ++ second) =
      (graph.lead entity first).bind fun reached => graph.lead reached second := by
  induction first generalizing entity with
  | nil => rfl
  | cons relation rest ih =>
      simp only [List.cons_append, lead, bind, Except.bind]
      cases graph.hop entity.name relation with
      | error fault => rfl
      | ok hop => exact ih hop.related

theorem lead_concat (graph : RelationGraph) (entity : Entity) (path : List String)
    (relation : String) :
    graph.lead entity (path ++ [relation]) =
      (graph.lead entity path).bind fun parent =>
        (graph.hop parent.name relation).map (·.related) :=
  lead_append graph entity path [relation]

theorem lead_hop {graph : RelationGraph} {entity parent : Entity} {path : List String}
    {relation : String} {hop : Hop} (led : graph.lead entity path = .ok parent)
    (leads : graph.hop parent.name relation = .ok hop) :
    graph.lead entity (path ++ [relation]) = .ok hop.related := by
  rw [lead_concat, led]
  simp [Except.bind, Except.map, leads]

end RelationGraph

theorem JoinKey.concat_inj {within asked : String} {path asking : List String}
    {relation last : String}
    (same : (⟨asked, asking ++ [last]⟩ : JoinKey) = ⟨within, path ++ [relation]⟩) :
    asked = within ∧ asking = path ∧ last = relation := by
  obtain ⟨sameScope, samePath⟩ := JoinKey.mk.inj same
  obtain ⟨sameShorter, sameLast⟩ := List.append_inj' samePath rfl
  exact ⟨sameScope, sameShorter, List.singleton_inj.mp sameLast⟩

namespace JoinPlan

def keys (plan : JoinPlan) : List JoinKey :=
  plan.joined.map (·.1)

/-- What a path leads to when it is empty or joined already. -/
def reached? (plan : JoinPlan) (scope : String) (path : List String) : Option Target :=
  if path = [] then some plan.root else plan.joined? ⟨scope, path⟩

/-- Plans that steps of planning lead to. A step follows one relation from a path that is empty or
joined. -/
inductive Grown (graph : RelationGraph) (root : Entity) (scope : JoinScope) : JoinPlan → Prop where
  | start : Grown graph root scope (.new root scope)
  | step {plan : JoinPlan} {within : String} {path : List String} {relation : String}
      {parent : Target} {hop : Hop} (before : Grown graph root scope plan)
      (reached : plan.reached? within path = some parent)
      (fresh : plan.joined? ⟨within, path ++ [relation]⟩ = none)
      (leads : graph.hop parent.entity relation = .ok hop) :
      Grown graph root scope
        (plan.add ⟨within, path ++ [relation]⟩ (hop.join parent.binding plan.nextBinding))

theorem joined?_add (plan : JoinPlan) (key asked : JoinKey) (join : Join) :
    (plan.add key join).joined? asked =
      (plan.joined? asked).or (if key = asked then some join.target else none) := by
  unfold joined? add
  rw [List.find?_append]
  cases plan.joined.find? (·.1 = asked) with
  | some entry => rfl
  | none => by_cases same : key = asked <;> simp [same]

theorem joined?_add_self {plan : JoinPlan} {key : JoinKey} (fresh : plan.joined? key = none)
    (join : Join) : (plan.add key join).joined? key = some join.target := by
  simp [joined?_add, fresh]

theorem joined?_add_of_some {plan : JoinPlan} {asked : JoinKey} {target : Target}
    (found : plan.joined? asked = some target) (key : JoinKey) (join : Join) :
    (plan.add key join).joined? asked = some target := by
  simp [joined?_add, found]

theorem joined?_eq_none_iff (plan : JoinPlan) (key : JoinKey) :
    plan.joined? key = none ↔ key ∉ plan.keys := by
  simp only [joined?, keys, Option.map_eq_none_iff, List.find?_eq_none, decide_eq_true_eq,
    List.mem_map, not_exists, not_and]

theorem mem_keys_of_joined {plan : JoinPlan} {key : JoinKey} {target : Target}
    (found : plan.joined? key = some target) : key ∈ plan.keys := by
  by_contra absent
  rw [← joined?_eq_none_iff, found] at absent
  cases absent

theorem exists_of_mem_keys {plan : JoinPlan} {key : JoinKey} (held : key ∈ plan.keys) :
    ∃ target, plan.joined? key = some target := by
  rw [← Option.ne_none_iff_exists', Ne, joined?_eq_none_iff, Decidable.not_not]
  exact held

theorem joins_add (plan : JoinPlan) (key : JoinKey) (join : Join) :
    (plan.add key join).joins = plan.joins ++ [join] := by
  simp [add]

theorem keys_add (plan : JoinPlan) (key : JoinKey) (join : Join) :
    (plan.add key join).keys = plan.keys ++ [key] := by
  simp [keys, add]

theorem reached?_concat (plan : JoinPlan) (scope : String) (path : List String)
    (relation : String) :
    plan.reached? scope (path ++ [relation]) = plan.joined? ⟨scope, path ++ [relation]⟩ := by
  simp [reached?]

theorem reached?_add_self {plan : JoinPlan} {scope : String} {path : List String}
    {relation : String} (fresh : plan.joined? ⟨scope, path ++ [relation]⟩ = none) (join : Join) :
    (plan.add ⟨scope, path ++ [relation]⟩ join).reached? scope (path ++ [relation]) =
      some join.target := by
  rw [reached?_concat]
  exact joined?_add_self fresh join

theorem reached?_add_of_some {plan : JoinPlan} {scope : String} {path : List String}
    {target : Target} (found : plan.reached? scope path = some target) (key : JoinKey)
    (join : Join) : (plan.add key join).reached? scope path = some target := by
  unfold reached? at found ⊢
  split
  · rename_i empty
    simpa [empty, add] using found
  · rename_i longer
    rw [if_neg longer] at found
    exact joined?_add_of_some found key join

theorem reached?_add_cases {plan : JoinPlan} {within asked : String} {path asking : List String}
    {relation : String} {join : Join} {target : Target}
    (found : (plan.add ⟨within, path ++ [relation]⟩ join).reached? asked asking = some target) :
    plan.reached? asked asking = some target ∨
      (asked = within ∧ asking = path ++ [relation] ∧ target = join.target) := by
  unfold reached? at found ⊢
  split at found
  · rename_i empty
    exact Or.inl (by simpa [empty, add] using found)
  · rename_i longer
    rw [joined?_add, Option.or_eq_some_iff] at found
    rcases found with old | ⟨_, new⟩
    · exact Or.inl (by rwa [if_neg longer])
    · split at new
      · rename_i same
        cases same
        exact Or.inr ⟨rfl, rfl, (Option.some.inj new).symm⟩
      · cases new

theorem reached?_new {root : Entity} (scope : JoinScope) {within : String} {path : List String}
    {target : Target} (found : (new root scope).reached? within path = some target) :
    path = [] ∧ target = ⟨root.name, root.table⟩ := by
  unfold reached? at found
  split at found
  · rename_i empty
    exact ⟨empty, (Option.some.inj found).symm⟩
  · cases found

def Closed (plan : JoinPlan) : Prop :=
  ∀ ⦃within path rest target⦄, plan.reached? within (path ++ rest) = some target →
    ∃ shorter, plan.reached? within path = some shorter

theorem closed_new (root : Entity) (scope : JoinScope) : (new root scope).Closed := by
  intro within path rest target reached
  obtain ⟨empty, _⟩ := reached?_new scope reached
  rw [(List.append_eq_nil_iff.mp empty).1]
  exact ⟨_, rfl⟩

theorem Closed.add {plan : JoinPlan} {within : String} {path : List String} {parent : Target}
    (closed : plan.Closed) (parentReached : plan.reached? within path = some parent)
    (relation : String) (join : Join) :
    (plan.add ⟨within, path ++ [relation]⟩ join).Closed := by
  intro asked asking rest target reached
  have of_old {found : Target} {longer : List String}
      (old : plan.reached? asked (asking ++ longer) = some found) :
      ∃ shorter, (plan.add ⟨within, path ++ [relation]⟩ join).reached? asked asking =
        some shorter := by
    obtain ⟨shorter, shorterReached⟩ := closed old
    exact ⟨shorter, reached?_add_of_some shorterReached _ _⟩
  rcases reached?_add_cases reached with old | ⟨rfl, same, _⟩
  · exact of_old old
  · rcases List.eq_nil_or_concat rest with rfl | ⟨behind, last, rfl⟩
    · rw [List.append_nil] at reached
      exact ⟨target, reached⟩
    · rw [List.concat_eq_append, ← List.append_assoc] at same
      rw [← (List.append_inj' same rfl).1] at parentReached
      exact of_old parentReached

theorem Closed.unreached {plan : JoinPlan} (closed : plan.Closed) {within : String}
    {path : List String} {relation : String}
    (fresh : plan.joined? ⟨within, path ++ [relation]⟩ = none) (rest : List String) :
    plan.reached? within (path ++ [relation] ++ rest) = none := by
  rw [Option.eq_none_iff_forall_ne_some]
  intro target found
  obtain ⟨shorter, joined⟩ := closed found
  rw [reached?_concat, fresh] at joined
  cases joined

/-! What all plans have in common. -/

section Grown

variable {graph : RelationGraph} {root : Entity} {scope : JoinScope} {plan : JoinPlan}

theorem Grown.root_eq (grown : Grown graph root scope plan) :
    plan.root = ⟨root.name, root.table⟩ := by
  induction grown with
  | start => rfl
  | step _ _ _ _ ih => exact ih

theorem Grown.scope_eq (grown : Grown graph root scope plan) : plan.scope = scope := by
  induction grown with
  | start => rfl
  | step _ _ _ _ ih => exact ih

theorem Grown.numbered (grown : Grown graph root scope plan) :
    Join.Numbered .joined 0 plan.joins := by
  induction grown with
  | start => exact trivial
  | @step plan _ _ _ _ hop _ _ _ _ ih =>
      rw [joins_add, Join.numbered_append, Join.numbered_singleton,
        TableName.nextBinding_eq, Nat.zero_add]
      exact ⟨ih, hop.bears_join _ .joined _⟩

/-- A joined path leads to the entity that its relations lead to, and the table of this entity is
bound to the name that the plan has for the path. -/
theorem Grown.reached_bound (grown : Grown graph root scope plan) {within : String}
    {path : List String} {target : Target} (reached : plan.reached? within path = some target) :
    ∃ entity, graph.lead root path = .ok entity ∧ target.entity = entity.name ∧
      (target.binding, entity.table) ∈
        (root.table, root.table) :: plan.joins.map fun join => (join.binding, join.table) := by
  induction grown generalizing within path target with
  | start =>
      obtain ⟨rfl, rfl⟩ := reached?_new scope reached
      exact ⟨root, rfl, rfl, List.mem_cons_self⟩
  | step _ parentReached _ leads ih =>
      rw [joins_add, List.map_append, ← List.cons_append]
      rcases reached?_add_cases reached with old | ⟨_, rfl, rfl⟩
      · obtain ⟨entity, led, named, held⟩ := ih old
        exact ⟨entity, led, named, List.mem_append_left _ held⟩
      · obtain ⟨parent, led, named, _⟩ := ih parentReached
        rw [named] at leads
        exact ⟨_, RelationGraph.lead_hop led leads, rfl,
          List.mem_append_right _ (List.mem_singleton_self _)⟩

theorem Grown.reached_lead (grown : Grown graph root scope plan) {within : String}
    {path : List String} {target : Target} (reached : plan.reached? within path = some target) :
    ∃ entity, graph.lead root path = .ok entity ∧ target.entity = entity.name := by
  obtain ⟨entity, led, named, _⟩ := grown.reached_bound reached
  exact ⟨entity, led, named⟩

theorem Grown.reached_binding (grown : Grown graph root scope plan) {within : String}
    {path : List String} {target : Target} (reached : plan.reached? within path = some target) :
    target.binding = root.table ∨
      ∃ number ≤ plan.joins.length, target.binding = (TableName.ofJoin number).text := by
  obtain ⟨_, _, _, bound⟩ := grown.reached_bound reached
  rcases List.mem_cons.mp bound with own | joined
  · exact Or.inl (congrArg Prod.fst own)
  · obtain ⟨join, held, same⟩ := List.mem_map.mp joined
    obtain ⟨number, _, upTo, bears⟩ := grown.numbered.exists_bears held
    exact Or.inr ⟨number, by omega, (congrArg Prod.fst same).symm.trans bears.binding⟩

theorem Grown.keys_nodup (grown : Grown graph root scope plan) : plan.keys.Nodup := by
  induction grown with
  | start => exact List.nodup_nil
  | step _ _ fresh _ ih =>
      rw [keys_add]
      refine List.nodup_append.mpr ⟨ih, by simp, ?_⟩
      intro key held other same
      rw [List.mem_singleton.mp same]
      rintro rfl
      exact (joined?_eq_none_iff _ _).mp fresh held

theorem Grown.closed (grown : Grown graph root scope plan) : plan.Closed := by
  induction grown with
  | start => exact closed_new _ _
  | step _ reached _ _ ih => exact ih.add reached _ _

theorem Grown.shorter_joined (grown : Grown graph root scope plan) {within : String}
    {path : List String} {relation : String} (held : ⟨within, path ++ [relation]⟩ ∈ plan.keys) :
    ∃ parent, plan.reached? within path = some parent := by
  obtain ⟨target, found⟩ := exists_of_mem_keys held
  rw [← reached?_concat] at found
  exact grown.closed found

theorem Grown.allNames_nodup (grown : Grown graph root scope plan)
    (plain : ¬ IsGenerated root.table) :
    (root.table :: plan.joins.flatMap Join.tableNames).Nodup :=
  List.nodup_cons.mpr ⟨fun held => plain (grown.numbered.isGenerated held),
    grown.numbered.tableNames_nodup⟩

end Grown

/-! What walking a path does, one relation at a time. -/

section Walk

variable (graph : RelationGraph) (within : String)

theorem walk_joined {plan : JoinPlan} {walked : List String} {relation : String} {target : Target}
    (found : plan.joined? ⟨within, walked ++ [relation]⟩ = some target) (current : Target)
    (rest : List String) :
    walk graph within plan walked current (relation :: rest) =
      walk graph within plan (walked ++ [relation]) target rest := by
  simp only [walk, found]

theorem walk_fault {plan : JoinPlan} {walked : List String} {relation : String} {current : Target}
    {fault : Fault} (fresh : plan.joined? ⟨within, walked ++ [relation]⟩ = none)
    (stuck : graph.hop current.entity relation = .error fault) (rest : List String) :
    walk graph within plan walked current (relation :: rest) = (plan, .error fault) := by
  simp only [walk, fresh, Hop.hop_eq, stuck, Except.map]

theorem walk_added {plan : JoinPlan} {walked : List String} {relation : String} {current : Target}
    {hop : Hop} (fresh : plan.joined? ⟨within, walked ++ [relation]⟩ = none)
    (leads : graph.hop current.entity relation = .ok hop) (rest : List String) :
    walk graph within plan walked current (relation :: rest) =
      walk graph within
        (plan.add ⟨within, walked ++ [relation]⟩ (hop.join current.binding plan.nextBinding))
        (walked ++ [relation]) ⟨hop.related.name, plan.nextBinding⟩ rest := by
  simp only [walk, fresh, Hop.hop_eq, leads, Except.map]
  rfl

variable {graph : RelationGraph} {within : String} {root : Entity} {scope : JoinScope}

theorem walk_induction
    {motive : JoinPlan → List String → Target → List String → JoinPlan × Except Fault Target → Prop}
    (done : ∀ {plan walked current}, Grown graph root scope plan →
      plan.reached? within walked = some current →
      motive plan walked current [] (plan, .ok current))
    (joined : ∀ {plan walked current relation target rest outcome},
      Grown graph root scope plan → plan.reached? within walked = some current →
      plan.reached? within (walked ++ [relation]) = some target →
      motive plan (walked ++ [relation]) target rest outcome →
      motive plan walked current (relation :: rest) outcome)
    (stopped : ∀ {plan walked current relation fault} (rest), Grown graph root scope plan →
      plan.reached? within walked = some current →
      graph.hop current.entity relation = .error fault →
      motive plan walked current (relation :: rest) (plan, .error fault))
    (added : ∀ {plan walked current relation} {hop : Hop} {rest outcome},
      Grown graph root scope plan → plan.reached? within walked = some current →
      plan.joined? ⟨within, walked ++ [relation]⟩ = none →
      graph.hop current.entity relation = .ok hop →
      (plan.add ⟨within, walked ++ [relation]⟩
        (hop.join current.binding plan.nextBinding)).reached? within (walked ++ [relation]) =
          some ⟨hop.related.name, plan.nextBinding⟩ →
      motive (plan.add ⟨within, walked ++ [relation]⟩
        (hop.join current.binding plan.nextBinding)) (walked ++ [relation])
          ⟨hop.related.name, plan.nextBinding⟩ rest outcome →
      motive plan walked current (relation :: rest) outcome)
    {plan : JoinPlan} {walked : List String} {current : Target}
    (grown : Grown graph root scope plan) (reached : plan.reached? within walked = some current)
    (path : List String) :
    motive plan walked current path (walk graph within plan walked current path) := by
  induction path generalizing plan walked current with
  | nil => exact done grown reached
  | cons relation rest ih =>
      cases found : plan.joined? ⟨within, walked ++ [relation]⟩ with
      | some target =>
          rw [walk_joined graph within found]
          have next : plan.reached? within (walked ++ [relation]) = some target := by
            rwa [reached?_concat]
          exact joined grown reached next (ih grown next)
      | none =>
          cases leads : graph.hop current.entity relation with
          | error fault =>
              rw [walk_fault graph within found leads]
              exact stopped rest grown reached leads
          | ok hop =>
              rw [walk_added graph within found leads]
              have next := reached?_add_self found (hop.join current.binding plan.nextBinding)
              exact added grown reached found leads next (ih (.step grown reached found leads) next)

variable {plan : JoinPlan} {walked : List String} {current : Target}

theorem walk_grown (grown : Grown graph root scope plan)
    (reached : plan.reached? within walked = some current) (path : List String) :
    Grown graph root scope (walk graph within plan walked current path).1 := by
  refine walk_induction (motive := fun _ _ _ _ outcome => Grown graph root scope outcome.1)
    ?_ ?_ ?_ ?_ grown reached path
  · exact fun grown _ => grown
  · exact fun _ _ _ after => after
  · exact fun _ grown _ _ => grown
  · exact fun _ _ _ _ _ after => after

theorem walk_keeps {path : List String} {outcome : JoinPlan × Except Fault Target}
    (ended : walk graph within plan walked current path = outcome) {asked : String}
    {asking : List String} {target : Target} (found : plan.reached? asked asking = some target) :
    outcome.1.reached? asked asking = some target := by
  subst ended
  fun_induction walk graph within plan walked current path with
  | case1 => exact found
  | case2 _ _ _ _ _ _ _ _ ih => exact ih found
  | case3 => exact found
  | case4 _ _ _ _ _ _ _ _ _ ih => exact ih (reached?_add_of_some found _ _)

theorem walk_keys (grown : Grown graph root scope plan)
    (reached : plan.reached? within walked = some current) (path : List String)
    {key : JoinKey} (held : key ∈ (walk graph within plan walked current path).1.keys) :
    key ∈ plan.keys ∨ ∃ first relation, first ++ [relation] <+: path ∧
      key = ⟨within, walked ++ (first ++ [relation])⟩ := by
  -- What lies along the rest of a path lies along the whole of it.
  have longer {walked rest : List String} {relation : String}
      (along : ∃ first last, first ++ [last] <+: rest ∧
        key = ⟨within, walked ++ [relation] ++ (first ++ [last])⟩) :
      ∃ first last, first ++ [last] <+: relation :: rest ∧
        key = ⟨within, walked ++ (first ++ [last])⟩ := by
    obtain ⟨first, last, inRest, rfl⟩ := along
    exact ⟨relation :: first, last, by simpa using inRest, by simp⟩
  refine walk_induction (motive := fun plan walked _ path outcome => key ∈ outcome.1.keys →
    key ∈ plan.keys ∨ ∃ first relation, first ++ [relation] <+: path ∧
      key = ⟨within, walked ++ (first ++ [relation])⟩) ?_ ?_ ?_ ?_ grown reached path held
  · exact fun _ _ held => Or.inl held
  · exact fun _ _ _ after held => (after held).imp id longer
  · exact fun _ _ _ _ held => Or.inl held
  · intro plan walked current relation hop rest _ _ _ _ _ _ after held
    rcases after held with before | along
    · rw [keys_add, List.mem_append, List.mem_singleton] at before
      rcases before with old | rfl
      · exact Or.inl old
      · exact Or.inr ⟨[], relation, by simp, rfl⟩
    · exact Or.inr (longer along)

theorem walk_reached (reached : plan.reached? within walked = some current) {path : List String}
    {outcome : JoinPlan × Except Fault Target}
    (ended : walk graph within plan walked current path = outcome) {target : Target}
    (answered : outcome.2 = .ok target) :
    outcome.1.reached? within (walked ++ path) = some target := by
  subst ended
  fun_induction walk graph within plan walked current path with
  | case1 =>
      cases answered
      rwa [List.append_nil]
  | case2 plan walked current relation rest key next joined ih =>
      rw [← reached?_concat] at joined
      rw [List.append_cons]
      exact ih joined answered
  | case3 => cases answered
  | case4 plan walked current relation rest key fresh join leads ih =>
      rw [List.append_cons]
      exact ih (reached?_add_self fresh join) answered

theorem walk_entity (grown : Grown graph root scope plan)
    (reached : plan.reached? within walked = some current) (path : List String)
    {entity : Entity} (led : graph.lead root walked = .ok entity) :
    (walk graph within plan walked current path).2.map (·.entity) =
      (graph.lead entity path).map (·.name) := by
  -- The entity before the next relation goes by the name that the plan has for it.
  have current_name {plan : JoinPlan} {walked : List String} {current : Target} {entity : Entity}
      (grown : Grown graph root scope plan) (reached : plan.reached? within walked = some current)
      (led : graph.lead root walked = .ok entity) : current.entity = entity.name := by
    obtain ⟨same, sameLed, named⟩ := grown.reached_lead reached
    rw [led] at sameLed
    cases sameLed
    exact named
  refine walk_induction (motive := fun _ walked _ path outcome => ∀ entity,
    graph.lead root walked = .ok entity →
      outcome.2.map (·.entity) = (graph.lead entity path).map (·.name))
    ?_ ?_ ?_ ?_ grown reached path entity led
  · intro plan walked current grown reached entity led
    simp [Except.map, RelationGraph.lead, current_name grown reached led]
  · intro plan walked current relation target rest outcome grown reached next after entity led
    obtain ⟨_, nextLed, _⟩ := grown.reached_lead next
    have stepLed := nextLed
    rw [RelationGraph.lead_concat, led] at stepLed
    cases leads : graph.hop entity.name relation with
    | error fault => simp [Except.bind, Except.map, leads] at stepLed
    | ok hop =>
        cases nextLed.symm.trans (RelationGraph.lead_hop led leads)
        rw [after _ nextLed]
        simp [RelationGraph.lead, bind, Except.bind, leads]
  · intro plan walked current relation fault rest grown reached stuck entity led
    rw [current_name grown reached led] at stuck
    simp [Except.map, RelationGraph.lead, bind, Except.bind, stuck]
  · intro plan walked current relation hop rest outcome grown reached _ leads _ after entity led
    rw [current_name grown reached led] at leads
    rw [after _ (RelationGraph.lead_hop led leads)]
    simp [RelationGraph.lead, bind, Except.bind, leads]

end Walk

/-! What planning one path does. -/

section Path

variable {graph : RelationGraph} {root : Entity} {scope : JoinScope} {plan : JoinPlan}
  (grown : Grown graph root scope plan) (names : PropertyMap) (segments : List String)
  (group : String)

include grown

theorem plan_walk : plan.plan graph names segments group =
    walk graph (scope.key group) plan [] plan.root (segments.map names.resolve) := by
  rw [JoinPlan.plan, grown.scope_eq]

theorem plan_grown : Grown graph root scope (plan.plan graph names segments group).1 := by
  rw [plan_walk grown]
  exact walk_grown grown rfl _

theorem plan_entity : (plan.plan graph names segments group).2.map (·.entity) =
    (graph.lead root (segments.map names.resolve)).map (·.name) := by
  rw [plan_walk grown]
  exact walk_entity grown rfl _ rfl

end Path

end JoinPlan

end FilterQuery
