import FilterQuery.Proofs.PlannedLeaves
import Mathlib.Data.List.Infix

/-!
What a plan holds after paths were planned one after the other, whether or not all of them could be.
Its two stores tell the same: each joined path is one join and each join is one joined path,
numbered in the order in which the paths were met first. Main statement: every run of requests leads
to a plan that records it.
-/

namespace FilterQuery

/-- A path to be planned: its segments as a condition writes them, the names that they go by, and a
group. -/
structure PathRequest where
  names : PropertyMap
  segments : List String
  group : String

namespace PathRequest

def key (scope : JoinScope) (request : PathRequest) : JoinKey :=
  ⟨scope.key request.group, request.segments.map request.names.resolve⟩

/-- The paths on the way, the shortest first. The empty path needs no join. -/
def keys (scope : JoinScope) (request : PathRequest) : List JoinKey :=
  (request.key scope).path.inits.tail.map (JoinKey.mk (request.key scope).scope)

end PathRequest

def JoinKey.resolves (graph : RelationGraph) (root : Entity) (key : JoinKey) : Bool :=
  (graph.lead root key.path).isOk

namespace JoinPlan

/-- Plans paths one after the other. A path that fails leaves the joins that it had made before. -/
def planAll (graph : RelationGraph) (start : JoinPlan) : List PathRequest → JoinPlan
  | [] => start
  | request :: rest =>
      planAll graph (start.plan graph request.names request.segments request.group).1 rest

/-- The paths that joins are asked for and that lead somewhere, each as often as it is met. -/
def met (graph : RelationGraph) (root : Entity) (scope : JoinScope) (asked : List PathRequest) :
    List JoinKey :=
  (asked.flatMap (·.keys scope)).filter (·.resolves graph root)

structure Records (graph : RelationGraph) (root : Entity) (scope : JoinScope)
    (asked : List PathRequest) (plan : JoinPlan) : Prop where
  keys_nodup : plan.keys.Nodup
  join_of_entry : ∀ {key target}, plan.joined? key = some target →
    ∃! index : Nat, (plan.joins[index]?).map Join.target = some target
  entry_of_join : ∀ {index : Nat} {join}, plan.joins[index]? = some join →
    ∃! key, plan.joined? key = some join.target
  binding : ∀ {index : Nat} {join}, plan.joins[index]? = some join →
    join.binding = "j" ++ Text.naturalText (index + 1)
  shorter : ∀ {within path relation}, path ≠ [] →
    plan.joined? ⟨within, path ++ [relation]⟩ ≠ none → plan.joined? ⟨within, path⟩ ≠ none
  resolved : ∀ {within path relation target},
    plan.joined? ⟨within, path ++ [relation]⟩ = some target →
      ∃ parent declared join, plan.reached? within path = some parent ∧
        graph.relation parent.entity relation = .ok declared ∧
        Join.resolve graph parent declared target.binding = .ok join ∧
        join ∈ plan.joins ∧ join.target = target
  in_order : (met graph root scope asked).eraseDups.map plan.joined? =
    plan.joins.map fun join => some join.target
  joined_iff : ∀ {key}, plan.joined? key ≠ none ↔ key ∈ met graph root scope asked
  answers : ∀ {before request after target}, asked = before ++ request :: after →
    ((planAll graph (.new root scope) before).plan graph request.names request.segments
      request.group).2 = .ok target →
    plan.target request.names request.segments request.group = .ok target
  shared : ∀ {first second : PathRequest} {target other}, first.segments ≠ [] →
    second.segments ≠ [] →
    plan.target first.names first.segments first.group = .ok target →
    plan.target second.names second.segments second.group = .ok other →
    (target.binding = other.binding ↔ first.key scope = second.key scope)

theorem eraseDups_concat {Item : Type} [BEq Item] [LawfulBEq Item] [DecidableEq Item]
    (items : List Item) (item : Item) :
    (items ++ [item]).eraseDups =
      if item ∈ items then items.eraseDups else items.eraseDups ++ [item] := by
  rw [List.eraseDups_append]
  split
  · rename_i held
    simp [List.removeAll, held]
  · rename_i fresh
    simp [List.removeAll, fresh, List.eraseDups_cons]

/-! The two stores of a grown plan. -/

section Stores

variable {graph : RelationGraph} {root : Entity} {scope : JoinScope} {plan : JoinPlan}

theorem Grown.targets (grown : Grown graph root scope plan) :
    plan.keys.map plan.joined? = plan.joins.map fun join => some join.target := by
  induction grown with
  | start => rfl
  | @step plan within path relation _ _ _ _ fresh _ ih =>
      rw [keys_add, joins_add, List.map_append, List.map_append, ← ih, List.map_singleton,
        List.map_singleton, joined?_add_self fresh]
      congr 1
      refine List.map_congr_left fun key held => ?_
      have other : (⟨within, path ++ [relation]⟩ : JoinKey) ≠ key := by
        rintro rfl
        exact (joined?_eq_none_iff _ _).mp fresh held
      rw [joined?_add, if_neg other, Option.or_none]

theorem Grown.binding_eq (grown : Grown graph root scope plan) {index : Nat} {join : Join}
    (held : plan.joins[index]? = some join) :
    join.binding = (TableName.ofJoin (index + 1)).text := by
  have bears := grown.numbered.bears_at held
  rw [Nat.zero_add] at bears
  exact bears.binding

theorem Grown.key_at (grown : Grown graph root scope plan) (index : Nat) :
    (plan.keys[index]?).map plan.joined? = (plan.joins[index]?).map fun join =>
      some join.target := by
  rw [← List.getElem?_map, ← List.getElem?_map, grown.targets]

theorem Grown.index_unique (grown : Grown graph root scope plan) {first second : Nat}
    {target : Target} (atFirst : (plan.joins[first]?).map Join.target = some target)
    (atSecond : (plan.joins[second]?).map Join.target = some target) : first = second := by
  obtain ⟨join, heldFirst, sameFirst⟩ := Option.map_eq_some_iff.mp atFirst
  obtain ⟨other, heldSecond, sameSecond⟩ := Option.map_eq_some_iff.mp atSecond
  have bindings : join.binding = other.binding :=
    congrArg Target.binding (sameFirst.trans sameSecond.symm)
  rw [grown.binding_eq heldFirst, grown.binding_eq heldSecond] at bindings
  have numbers := congrArg TableName.number (TableName.text_injective bindings)
  simpa [TableName.ofJoin] using numbers

theorem Grown.joined_iff_index (grown : Grown graph root scope plan) {key : JoinKey}
    {target : Target} :
    plan.joined? key = some target ↔
      ∃ index : Nat, plan.keys[index]? = some key ∧
        (plan.joins[index]?).map Join.target = some target := by
  constructor
  · intro found
    obtain ⟨index, held⟩ := List.getElem?_of_mem (mem_keys_of_joined found)
    have aligned := grown.key_at index
    rw [held, Option.map_some, found] at aligned
    obtain ⟨join, heldJoin, same⟩ := Option.map_eq_some_iff.mp aligned.symm
    exact ⟨index, held, by rw [heldJoin, Option.map_some, same]⟩
  · rintro ⟨index, held, atIndex⟩
    obtain ⟨join, heldJoin, rfl⟩ := Option.map_eq_some_iff.mp atIndex
    have aligned := grown.key_at index
    rw [held, heldJoin] at aligned
    exact Option.some.inj aligned

theorem Grown.key_unique (grown : Grown graph root scope plan) {first second : JoinKey}
    {target : Target} (foundFirst : plan.joined? first = some target)
    (foundSecond : plan.joined? second = some target) : first = second := by
  obtain ⟨index, heldFirst, atFirst⟩ := grown.joined_iff_index.mp foundFirst
  obtain ⟨other, heldSecond, atSecond⟩ := grown.joined_iff_index.mp foundSecond
  rw [grown.index_unique atFirst atSecond, heldSecond] at heldFirst
  exact (Option.some.inj heldFirst).symm

theorem Grown.join_of_entry (grown : Grown graph root scope plan) {key : JoinKey} {target : Target}
    (found : plan.joined? key = some target) :
    ∃! index : Nat, (plan.joins[index]?).map Join.target = some target := by
  obtain ⟨index, _, atIndex⟩ := grown.joined_iff_index.mp found
  exact ⟨index, atIndex, fun _ atOther => grown.index_unique atOther atIndex⟩

theorem Grown.entry_of_join (grown : Grown graph root scope plan) {index : Nat} {join : Join}
    (held : plan.joins[index]? = some join) : ∃! key, plan.joined? key = some join.target := by
  have aligned := grown.key_at index
  rw [held, Option.map_some] at aligned
  obtain ⟨key, _, found⟩ := Option.map_eq_some_iff.mp aligned
  exact ⟨key, found, fun _ other => grown.key_unique other found⟩

theorem Grown.binding_injective (grown : Grown graph root scope plan) {first second : JoinKey}
    {target other : Target} (foundFirst : plan.joined? first = some target)
    (foundSecond : plan.joined? second = some other) (same : target.binding = other.binding) :
    first = second := by
  obtain ⟨index, _, atFirst⟩ := grown.joined_iff_index.mp foundFirst
  obtain ⟨next, _, atSecond⟩ := grown.joined_iff_index.mp foundSecond
  obtain ⟨join, heldJoin, rfl⟩ := Option.map_eq_some_iff.mp atFirst
  obtain ⟨later, heldLater, rfl⟩ := Option.map_eq_some_iff.mp atSecond
  have names : (TableName.ofJoin (index + 1)).text = (TableName.ofJoin (next + 1)).text := by
    rw [← grown.binding_eq heldJoin, ← grown.binding_eq heldLater]
    exact same
  have numbers : index = next := by
    simpa [TableName.ofJoin] using congrArg TableName.number (TableName.text_injective names)
  subst numbers
  rw [heldJoin] at heldLater
  cases heldLater
  exact grown.key_unique foundFirst foundSecond

theorem Grown.joined_from (grown : Grown graph root scope plan) {within : String}
    {path : List String} {relation : String} {target : Target}
    (found : plan.joined? ⟨within, path ++ [relation]⟩ = some target) :
    ∃ parent hop, plan.reached? within path = some parent ∧
      graph.hop parent.entity relation = .ok hop ∧
      hop.join parent.binding target.binding ∈ plan.joins ∧
      (hop.join parent.binding target.binding).target = target := by
  induction grown generalizing target with
  | start => cases found
  | @step plan _ _ _ parent hop _ reached _ leads ih =>
      rw [← reached?_concat] at found
      rcases reached?_add_cases found with old | ⟨rfl, same, rfl⟩
      · rw [reached?_concat] at old
        obtain ⟨before, next, reachedBefore, leadsNext, held, same⟩ := ih old
        refine ⟨before, next, reached?_add_of_some reachedBefore _ _, leadsNext, ?_, same⟩
        rw [joins_add]
        exact List.mem_append_left _ held
      · obtain ⟨rfl, sameLast⟩ := List.append_inj' same rfl
        cases List.singleton_inj.mp sameLast
        refine ⟨parent, hop, reached?_add_of_some reached _ _, leads, ?_, rfl⟩
        rw [joins_add]
        exact List.mem_append_right _ (List.mem_singleton_self _)

theorem Grown.resolved (grown : Grown graph root scope plan) {within : String}
    {path : List String} {relation : String} {target : Target}
    (found : plan.joined? ⟨within, path ++ [relation]⟩ = some target) :
    ∃ parent declared join, plan.reached? within path = some parent ∧
      graph.relation parent.entity relation = .ok declared ∧
      Join.resolve graph parent declared target.binding = .ok join ∧
      join ∈ plan.joins ∧ join.target = target := by
  obtain ⟨parent, hop, reached, leads, held, same⟩ := grown.joined_from found
  obtain ⟨declared, _, related, _⟩ := RelationGraph.hop_ok leads
  refine ⟨parent, declared, _, reached, related, ?_, held, same⟩
  rw [Hop.resolve_of_relation related, leads]
  rfl

end Stores

/-! The order in which paths are met. -/

section Order

variable {graph : RelationGraph} {root : Entity} {scope : JoinScope} {plan : JoinPlan}

def ahead (within : String) (walked path : List String) : List JoinKey :=
  path.inits.tail.map fun next => ⟨within, walked ++ next⟩

theorem ahead_nil (within : String) (walked : List String) : ahead within walked [] = [] := rfl

theorem ahead_cons (within : String) (walked : List String) (relation : String)
    (rest : List String) :
    ahead within walked (relation :: rest) =
      ⟨within, walked ++ [relation]⟩ :: ahead within (walked ++ [relation]) rest := by
  have first : rest.inits = [] :: rest.inits.tail := by cases rest <;> simp [List.inits]
  rw [ahead, List.inits_cons, List.tail_cons, first, List.map_cons, List.map_cons, List.map_map]
  simp [ahead, Function.comp_def]

theorem mem_ahead {within : String} {walked path : List String} {key : JoinKey}
    (held : key ∈ ahead within walked path) :
    ∃ relation next, key = ⟨within, walked ++ relation :: next⟩ := by
  cases path with
  | nil => cases held
  | cons relation rest =>
      rw [ahead, List.inits_cons, List.tail_cons, List.map_map] at held
      obtain ⟨next, _, rfl⟩ := List.mem_map.mp held
      exact ⟨relation, next, rfl⟩

theorem keys_eq_ahead (scope : JoinScope) (request : PathRequest) :
    request.keys scope = ahead (scope.key request.group) [] (request.key scope).path := rfl

theorem Grown.resolves_of_reached (grown : Grown graph root scope plan) {within : String}
    {path : List String} {target : Target} (reached : plan.reached? within path = some target) :
    JoinKey.resolves graph root ⟨within, path⟩ = true := by
  obtain ⟨entity, led, _⟩ := grown.reached_lead reached
  rw [JoinKey.resolves, led]
  rfl

theorem Grown.stuck_ahead (grown : Grown graph root scope plan) {within : String}
    {walked rest : List String} {current : Target} {relation : String} {fault : Fault}
    (reached : plan.reached? within walked = some current)
    (stuck : graph.hop current.entity relation = .error fault) :
    (ahead within walked (relation :: rest)).filter (·.resolves graph root) = [] := by
  obtain ⟨entity, led, named⟩ := grown.reached_lead reached
  rw [named] at stuck
  have notFirst (next : List String) :
      graph.lead root (walked ++ [relation] ++ next) = .error fault := by
    rw [RelationGraph.lead_append, RelationGraph.lead_concat, led]
    simp [Except.bind, Except.map, stuck]
  rw [ahead_cons, List.filter_eq_nil_iff, List.forall_mem_cons]
  constructor
  · have here := notFirst []
    rw [List.append_nil] at here
    rw [JoinKey.resolves, here]
    exact Bool.false_ne_true
  · intro key held
    obtain ⟨last, next, rfl⟩ := mem_ahead held
    rw [JoinKey.resolves, notFirst (last :: next)]
    exact Bool.false_ne_true

/-- A walk adds what lies ahead of it, resolves and was not met before. -/
theorem walk_keys_eq {within : String} {walked : List String} {current : Target}
    (grown : Grown graph root scope plan) (reached : plan.reached? within walked = some current)
    (path : List String) {seen : List JoinKey} (told : plan.keys = seen.eraseDups) :
    (walk graph within plan walked current path).1.keys =
      (seen ++ (ahead within walked path).filter (·.resolves graph root)).eraseDups := by
  refine walk_induction (motive := fun plan walked _ path outcome => ∀ seen,
    plan.keys = seen.eraseDups → outcome.1.keys =
      (seen ++ (ahead within walked path).filter (·.resolves graph root)).eraseDups)
    ?_ ?_ ?_ ?_ grown reached path seen told
  · intro plan walked current _ _ seen told
    rw [ahead_nil, List.filter_nil, List.append_nil, told]
  · intro plan walked current relation target rest outcome grown reached next after seen told
    have held : ⟨within, walked ++ [relation]⟩ ∈ seen := by
      rw [reached?_concat] at next
      rw [← List.mem_eraseDups, ← told]
      exact mem_keys_of_joined next
    rw [ahead_cons, List.filter_cons_of_pos (grown.resolves_of_reached next), List.append_cons]
    apply after
    rw [eraseDups_concat, if_pos held, told]
  · intro plan walked current relation fault rest grown reached stuck seen told
    rw [grown.stuck_ahead reached stuck, List.append_nil, told]
  · intro plan walked current relation hop rest outcome grown reached fresh leads
      next after seen told
    have unseen : ⟨within, walked ++ [relation]⟩ ∉ seen := by
      rw [← List.mem_eraseDups, ← told]
      exact (joined?_eq_none_iff _ _).mp fresh
    have resolves := (Grown.step grown reached fresh leads).resolves_of_reached next
    rw [ahead_cons, List.filter_cons_of_pos resolves, List.append_cons]
    apply after
    rw [eraseDups_concat, if_neg unseen, keys_add, told]

end Order

/-! A run of requests. -/

section Run

variable {graph : RelationGraph} {root : Entity} {scope : JoinScope} {start : JoinPlan}

theorem plan_eq_walk (grown : Grown graph root scope start) (request : PathRequest) :
    start.plan graph request.names request.segments request.group =
      walk graph (request.key scope).scope start [] start.root (request.key scope).path :=
  plan_walk grown request.names request.segments request.group

theorem joined?_of_target {plan : JoinPlan} {request : PathRequest} {target : Target}
    (longer : request.segments ≠ []) (grown : Grown graph root scope plan)
    (known : plan.target request.names request.segments request.group = .ok target) :
    plan.joined? (request.key scope) = some target := by
  rw [target_ok_iff, grown.scope_eq, reached?, if_neg (by simpa using longer)] at known
  exact known

theorem planAll_append (start : JoinPlan) (before after : List PathRequest) :
    planAll graph start (before ++ after) = planAll graph (planAll graph start before) after := by
  induction before generalizing start with
  | nil => rfl
  | cons request rest ih => exact ih _

theorem planAll_grown (grown : Grown graph root scope start) (asked : List PathRequest) :
    Grown graph root scope (planAll graph start asked) := by
  induction asked generalizing start with
  | nil => exact grown
  | cons request rest ih => exact ih (plan_grown grown _ _ _)

theorem planAll_new_grown (graph : RelationGraph) (root : Entity) (scope : JoinScope)
    (asked : List PathRequest) : Grown graph root scope (planAll graph (.new root scope) asked) :=
  planAll_grown .start asked

theorem planAll_keeps (grown : Grown graph root scope start) (asked : List PathRequest)
    {within : String} {path : List String} {target : Target}
    (reached : start.reached? within path = some target) :
    (planAll graph start asked).reached? within path = some target := by
  induction asked generalizing start with
  | nil => exact reached
  | cons request rest ih =>
      apply ih (plan_grown grown _ _ _)
      rw [plan_eq_walk grown]
      exact walk_keeps rfl reached

theorem planAll_reaches (grown : Grown graph root scope start) (request : PathRequest)
    (after : List PathRequest) {target : Target}
    (answered : (start.plan graph request.names request.segments request.group).2 = .ok target) :
    (planAll graph start (request :: after)).reached?
      (request.key scope).scope (request.key scope).path = some target := by
  have next := plan_grown grown request.names request.segments request.group
  rw [plan_eq_walk grown] at answered
  have reached := walk_reached rfl rfl answered
  rw [← plan_eq_walk grown, List.nil_append] at reached
  exact planAll_keeps next after reached

theorem planAll_answers (before : List PathRequest) (request : PathRequest)
    (after : List PathRequest) {target : Target}
    (answered : ((planAll graph (.new root scope) before).plan graph request.names
      request.segments request.group).2 = .ok target) :
    (planAll graph (.new root scope) (before ++ request :: after)).target request.names
      request.segments request.group = .ok target := by
  have grown := planAll_new_grown graph root scope before
  rw [planAll_append, target_ok_iff, (planAll_grown grown _).scope_eq]
  exact planAll_reaches grown request after answered

theorem planAll_keys (asked : List PathRequest) {seen : List JoinKey}
    (grown : Grown graph root scope start) (told : start.keys = seen.eraseDups) :
    (planAll graph start asked).keys = (seen ++ met graph root scope asked).eraseDups := by
  induction asked generalizing start seen with
  | nil => simpa [planAll, met] using told
  | cons request rest ih =>
      have atRoot : start.reached? (request.key scope).scope [] = some start.root := rfl
      have next := walk_keys_eq grown atRoot (request.key scope).path told
      rw [← plan_eq_walk grown] at next
      rw [planAll, ih (plan_grown grown _ _ _) next, List.append_assoc]
      simp [met, keys_eq_ahead, PathRequest.key]

theorem planAll_new_keys (graph : RelationGraph) (root : Entity) (scope : JoinScope)
    (asked : List PathRequest) :
    (planAll graph (.new root scope) asked).keys = (met graph root scope asked).eraseDups := by
  have atStart : (new root scope).keys = ([] : List JoinKey).eraseDups := rfl
  exact planAll_keys asked .start atStart

/-- Whatever was asked, and whether or not it could be planned, the plan records it. -/
theorem planAll_records (graph : RelationGraph) (root : Entity) (scope : JoinScope)
    (asked : List PathRequest) :
    Records graph root scope asked (planAll graph (.new root scope) asked) := by
  have grown := planAll_new_grown graph root scope asked
  have keys := planAll_new_keys graph root scope asked
  refine ⟨grown.keys_nodup, grown.join_of_entry, grown.entry_of_join, ?_, ?_,
    grown.resolved, ?_, ?_, ?_, ?_⟩
  · intro index join held
    rw [grown.binding_eq held, TableName.text_ofJoin]
  · intro within path relation longer joined
    obtain ⟨target, found⟩ := Option.ne_none_iff_exists'.mp joined
    obtain ⟨parent, _, reached, _⟩ := grown.joined_from found
    rw [reached?, if_neg longer] at reached
    simp [reached]
  · rw [← keys]
    exact grown.targets
  · intro key
    rw [Ne, joined?_eq_none_iff, Decidable.not_not, keys, List.mem_eraseDups]
  · rintro before request after target rfl answered
    exact planAll_answers before request after answered
  · intro first second target other longFirst longSecond knownFirst knownSecond
    have foundFirst := joined?_of_target longFirst grown knownFirst
    have foundSecond := joined?_of_target longSecond grown knownSecond
    constructor
    · exact grown.binding_injective foundFirst foundSecond
    · intro same
      rw [same, foundSecond] at foundFirst
      cases foundFirst
      rfl

end Run

end JoinPlan

end FilterQuery
