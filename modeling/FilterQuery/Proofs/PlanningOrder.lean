import FilterQuery.Proofs.Faithfulness
import FilterQuery.Proofs.PlanHistory
import Mathlib.Data.Set.Function

/-!
The order in which paths are planned. A joined table is named by the number of its join, and this
number is all that the order decides. Main statement: the same requests in another order join the
same paths, by joins that differ in the names of their tables only; and a request that was planned
finds what it asks for when it comes again.
-/

namespace FilterQuery

/-! Joins under other names. -/

def Join.renamedKeys (left right : String → String) (keys : List KeyPair) : List KeyPair :=
  keys.map fun pair =>
    ({ pair.1 with qualifier := left pair.1.qualifier },
      { pair.2 with qualifier := right pair.2.qualifier })

def Join.renamed (own before : String → String) (join : Join) : Join :=
  { join with
    binding := own join.binding
    link := join.link.map fun link =>
      { link with binding := own link.binding, keys := renamedKeys before own link.keys }
    keys := renamedKeys (if join.link.isSome then own else before) own join.keys }

theorem Hop.renamedKeys_qualified {own before : String → String} {left right : String}
    (columns : List (String × String)) :
    Join.renamedKeys before own (qualified left right columns) =
      qualified (before left) (own right) columns := by
  simp [Join.renamedKeys, qualified]

theorem Hop.renamed_join {own before : String → String} {binding image : String} (hop : Hop)
    (parent : String) (named : own binding = image)
    (linked : own (Join.linkBinding binding) = Join.linkBinding image) :
    (hop.join parent binding).renamed own before = hop.join (before parent) image := by
  cases through : hop.link with
  | none => simp [Join.renamed, join, through, renamedKeys_qualified, named]
  | some link => simp [Join.renamed, join, through, renamedKeys_qualified, named, linked]

/-- What becomes of the name that a join starts from. The first relation of a path starts from the
root, and the root keeps its name. -/
def JoinKey.before (rename : String → String) (key : JoinKey) : String → String :=
  if key.path.length = 1 then id else rename

namespace JoinPlan

def bindings (plan : JoinPlan) : List String :=
  plan.joins.map (·.binding)

def joinAt? (plan : JoinPlan) (key : JoinKey) : Option Join :=
  (plan.joined? key).bind fun target => plan.joins.find? (·.target = target)

/-- The second plan has the joins of the first, with other names for the joined tables. -/
structure Renames (rename : String → String) (first second : JoinPlan) : Prop where
  bijective : Set.BijOn rename {name | name ∈ first.bindings} {name | name ∈ second.bindings}
  linked : ∀ name ∈ first.bindings, rename (Join.linkBinding name) = Join.linkBinding (rename name)
  joins : ∀ key ∈ first.keys, ∃ join, first.joinAt? key = some join ∧
    second.joinAt? key = some (join.renamed rename (key.before rename))

/-! Keys and names of a plan. -/

section Names

variable {graph : RelationGraph} {root : Entity} {scope : JoinScope} {plan first second : JoinPlan}

theorem Grown.key_concat (grown : Grown graph root scope plan) {key : JoinKey}
    (held : key ∈ plan.keys) :
    ∃ path relation, key = ⟨key.scope, path ++ [relation]⟩ := by
  induction grown with
  | start => cases held
  | step _ _ _ _ ih =>
      rw [keys_add, List.mem_append, List.mem_singleton] at held
      rcases held with old | rfl
      · exact ih old
      · exact ⟨_, _, rfl⟩

theorem Grown.binding_of_joined (grown : Grown graph root scope plan) {key : JoinKey}
    {target : Target} (found : plan.joined? key = some target) :
    target.binding = (TableName.ofJoin (plan.keys.idxOf key + 1)).text := by
  obtain ⟨index, held, atIndex⟩ := grown.joined_iff_index.mp found
  obtain ⟨join, heldJoin, rfl⟩ := Option.map_eq_some_iff.mp atIndex
  obtain ⟨inside, rfl⟩ := List.getElem?_eq_some_iff.mp held
  rw [grown.keys_nodup.idxOf_getElem index inside]
  exact grown.binding_eq heldJoin

theorem Grown.joinAt?_eq (grown : Grown graph root scope plan) {key : JoinKey} {join : Join}
    (found : plan.joined? key = some join.target) (held : join ∈ plan.joins) :
    plan.joinAt? key = some join := by
  rw [joinAt?, found, Option.bind_some]
  obtain ⟨other, first⟩ : ∃ other, plan.joins.find? (·.target = join.target) = some other := by
    rw [← Option.isSome_iff_exists, List.find?_isSome]
    exact ⟨join, held, decide_eq_true rfl⟩
  have sameTarget : other.target = join.target := by simpa using List.find?_some first
  obtain ⟨index, atIndex⟩ := List.getElem?_of_mem held
  obtain ⟨next, atNext⟩ := List.getElem?_of_mem (List.mem_of_find?_eq_some first)
  have here : (plan.joins[index]?).map Join.target = some join.target := congrArg _ atIndex
  have there : (plan.joins[next]?).map Join.target = some join.target := by
    rw [atNext, Option.map_some, sameTarget]
  rw [first, ← atIndex, ← atNext, grown.index_unique here there]

theorem Grown.exists_key (grown : Grown graph root scope plan) {join : Join}
    (held : join ∈ plan.joins) :
    ∃ key, plan.joined? key = some join.target := by
  obtain ⟨index, found⟩ := List.getElem?_of_mem held
  exact (grown.entry_of_join found).exists

theorem Grown.mem_bindings_iff (grown : Grown graph root scope plan) (name : String) :
    name ∈ plan.bindings ↔ ∃ key target, plan.joined? key = some target ∧
      target.binding = name := by
  rw [bindings, List.mem_map]
  constructor
  · rintro ⟨join, held, rfl⟩
    obtain ⟨key, found⟩ := grown.exists_key held
    exact ⟨key, join.target, found, rfl⟩
  · rintro ⟨key, target, found, rfl⟩
    obtain ⟨index, _, atIndex⟩ := grown.joined_iff_index.mp found
    obtain ⟨join, held, rfl⟩ := Option.map_eq_some_iff.mp atIndex
    exact ⟨join, List.mem_of_getElem? held, rfl⟩

/-! The renaming that takes the table of a path to the table of the same path. -/

def renumber (first second : JoinPlan) (number : Nat) : Nat :=
  match first.keys[number - 1]? with
  | some key => second.keys.idxOf key + 1
  | none => number

noncomputable def rename (first second : JoinPlan) : String → String :=
  Function.extend TableName.text
    (fun name => TableName.text { name with number := renumber first second name.number }) id

theorem rename_text (first second : JoinPlan) (name : TableName) :
    rename first second name.text =
      TableName.text { name with number := renumber first second name.number } :=
  Function.Injective.extend_apply (fun _ _ => TableName.text_injective) _ _ _

variable (grown : Grown graph root scope first) (other : Grown graph root scope second)
include grown other

theorem rename_binding {key : JoinKey} {target image : Target}
    (found : first.joined? key = some target) (foundSecond : second.joined? key = some image) :
    rename first second target.binding = image.binding ∧
      rename first second (Join.linkBinding target.binding) = Join.linkBinding image.binding := by
  have number : renumber first second (first.keys.idxOf key + 1) = second.keys.idxOf key + 1 := by
    simp only [renumber, Nat.add_sub_cancel, List.getElem?_idxOf (mem_keys_of_joined found)]
  rw [grown.binding_of_joined found, other.binding_of_joined foundSecond]
  constructor
  · rw [rename_text]
    simp only [TableName.ofJoin, number]
  · rw [← TableName.text_linking rfl, ← TableName.text_linking rfl, rename_text]
    simp only [TableName.linking, TableName.ofJoin, number]

theorem before_binding {within : String} {path : List String} {relation : String}
    {parent image : Target} (reached : first.reached? within path = some parent)
    (reachedSecond : second.reached? within path = some image) :
    (JoinKey.mk within (path ++ [relation])).before (rename first second) parent.binding =
      image.binding := by
  cases path with
  | nil =>
      cases reached
      cases reachedSecond
      rw [grown.root_eq, other.root_eq]
      rfl
  | cons step rest =>
      have longer : (step :: rest ++ [relation]).length ≠ 1 := by simp
      rw [JoinKey.before, if_neg longer]
      exact (rename_binding grown other reached reachedSecond).1

theorem joins_renamed {key : JoinKey} (held : key ∈ first.keys) (heldSecond : key ∈ second.keys) :
    ∃ join, first.joinAt? key = some join ∧
      second.joinAt? key = some
        (join.renamed (rename first second) (key.before (rename first second))) := by
  obtain ⟨target, found⟩ := exists_of_mem_keys held
  obtain ⟨image, foundSecond⟩ := exists_of_mem_keys heldSecond
  obtain ⟨named, linked⟩ := rename_binding grown other found foundSecond
  obtain ⟨path, relation, same⟩ := grown.key_concat held
  rw [same] at found foundSecond ⊢
  obtain ⟨parent, hop, reached, leads, inJoins, leadsTo⟩ := grown.joined_from found
  obtain ⟨parentSecond, hopSecond, reachedSecond, leadsSecond, inSecond, leadsToSecond⟩ :=
    other.joined_from foundSecond
  -- Both start from the entity that the shorter path leads to, so they follow the same relation of
  -- it.
  have sameHop : hopSecond = hop := by
    obtain ⟨entity, led, entityName⟩ := grown.reached_lead reached
    obtain ⟨_, ledSecond, entityNameSecond⟩ := other.reached_lead reachedSecond
    cases led.symm.trans ledSecond
    rw [entityName] at leads
    rw [entityNameSecond, leads] at leadsSecond
    exact (Except.ok.inj leadsSecond).symm
  subst sameHop
  refine ⟨_, grown.joinAt?_eq (by rw [found, leadsTo]) inJoins, ?_⟩
  rw [hopSecond.renamed_join _ named linked, before_binding grown other reached reachedSecond]
  exact other.joinAt?_eq (by rw [foundSecond, leadsToSecond]) inSecond

theorem rename_bijOn (sameKeys : first.keys.Perm second.keys) :
    Set.BijOn (rename first second) {name | name ∈ first.bindings}
      {name | name ∈ second.bindings} := by
  have image {key : JoinKey} {target : Target} (found : first.joined? key = some target) :
      ∃ image, second.joined? key = some image ∧
        rename first second target.binding = image.binding := by
    obtain ⟨image, foundSecond⟩ :=
      exists_of_mem_keys (sameKeys.mem_iff.mp (mem_keys_of_joined found))
    exact ⟨image, foundSecond, (rename_binding grown other found foundSecond).1⟩
  refine ⟨?mapsTo, ?injOn, ?surjOn⟩
  case mapsTo =>
    rintro name held
    obtain ⟨key, target, found, rfl⟩ := (grown.mem_bindings_iff name).mp held
    obtain ⟨image, foundSecond, named⟩ := image found
    exact (other.mem_bindings_iff _).mpr ⟨key, image, foundSecond, named.symm⟩
  case injOn =>
    -- Names of different paths are taken to names of different paths.
    rintro name held asked heldAsked same
    obtain ⟨key, target, found, rfl⟩ := (grown.mem_bindings_iff name).mp held
    obtain ⟨asking, wanted, foundAsked, rfl⟩ := (grown.mem_bindings_iff asked).mp heldAsked
    obtain ⟨here, foundHere, named⟩ := image found
    obtain ⟨there, foundThere, namedThere⟩ := image foundAsked
    rw [named, namedThere] at same
    cases other.binding_injective foundHere foundThere same
    rw [found] at foundAsked
    exact congrArg Target.binding (Option.some.inj foundAsked)
  case surjOn =>
    rintro name held
    obtain ⟨key, target, foundSecond, rfl⟩ := (other.mem_bindings_iff name).mp held
    obtain ⟨origin, found⟩ :=
      exists_of_mem_keys (sameKeys.mem_iff.mpr (mem_keys_of_joined foundSecond))
    exact ⟨origin.binding, (grown.mem_bindings_iff _).mpr ⟨key, origin, found, rfl⟩,
      (rename_binding grown other found foundSecond).1⟩

/-- Plans that have joined the same paths differ in the names of joined tables only. -/
theorem renames_of_keys (sameKeys : first.keys.Perm second.keys) :
    Renames (rename first second) first second where
  bijective := rename_bijOn grown other sameKeys
  linked := by
    intro name held
    obtain ⟨key, target, found, rfl⟩ := (grown.mem_bindings_iff name).mp held
    obtain ⟨image, foundSecond⟩ :=
      exists_of_mem_keys (sameKeys.mem_iff.mp (mem_keys_of_joined found))
    obtain ⟨named, linked⟩ := rename_binding grown other found foundSecond
    rw [named, linked]
  joins := fun _ held => joins_renamed grown other held (sameKeys.mem_iff.mp held)

omit grown other in
theorem mem_of_joinAt? {key : JoinKey} {join : Join} (found : plan.joinAt? key = some join) :
    join ∈ plan.joins := by
  obtain ⟨_, _, first⟩ := Option.bind_eq_some_iff.mp found
  exact List.mem_of_find?_eq_some first

omit other in
theorem Renames.fansOut_of {rename : String → String} (renames : Renames rename first second)
    (fans : first.fansOut = true) : second.fansOut = true := by
  obtain ⟨join, held, many⟩ := List.any_eq_true.mp fans
  obtain ⟨key, found⟩ := grown.exists_key held
  obtain ⟨same, atKey, atSecond⟩ := renames.joins key (mem_keys_of_joined found)
  cases (grown.joinAt?_eq found held).symm.trans atKey
  exact List.any_eq_true.mpr ⟨_, mem_of_joinAt? atSecond, many⟩

theorem fansOut_of_keys (sameKeys : first.keys.Perm second.keys) : first.fansOut = second.fansOut :=
  Bool.eq_iff_iff.mpr ⟨(renames_of_keys grown other sameKeys).fansOut_of grown,
    (renames_of_keys other grown sameKeys.symm).fansOut_of other⟩

end Names

/-! Paths that are planned again. -/

section Again

variable {graph : RelationGraph} {root : Entity} {scope : JoinScope} {plan : JoinPlan}

theorem walk_again (closed : plan.Closed) {within : String} {walked path : List String}
    {current target : Target} (reached : plan.reached? within walked = some current)
    (ended : plan.reached? within (walked ++ path) = some target) :
    walk graph within plan walked current path = (plan, .ok target) := by
  induction path generalizing walked current with
  | nil =>
      rw [List.append_nil, reached] at ended
      cases ended
      rfl
  | cons relation rest ih =>
      rw [List.append_cons] at ended
      obtain ⟨next, nextReached⟩ := closed ended
      have joined := nextReached
      rw [reached?_concat] at joined
      rw [walk_joined graph within joined]
      exact ih nextReached ended

theorem plan_ok_iff (grown : Grown graph root scope plan) (request : PathRequest) :
    (∃ target, (plan.plan graph request.names request.segments request.group).2 = .ok target) ↔
      ∃ entity, graph.lead root (request.key scope).path = .ok entity :=
  ok_iff_of_map (plan_entity grown request.names request.segments request.group)

theorem planAll_again {asked : List PathRequest} {request : PathRequest} (held : request ∈ asked)
    (alone : ∃ target,
      ((new root scope).plan graph request.names request.segments request.group).2 = .ok target) :
    ∃ target, (∀ before after, asked = before ++ request :: after →
        ((planAll graph (.new root scope) before).plan graph request.names request.segments
          request.group).2 = .ok target) ∧
      (planAll graph (.new root scope) asked).plan graph request.names request.segments
        request.group = (planAll graph (.new root scope) asked, .ok target) := by
  have grown := planAll_new_grown graph root scope asked
  have answers {before after : List PathRequest} (run : asked = before ++ request :: after) :
      ∃ target, ((planAll graph (.new root scope) before).plan graph request.names request.segments
          request.group).2 = .ok target ∧
        (planAll graph (.new root scope) asked).reached? (request.key scope).scope
          (request.key scope).path = some target := by
    have grownBefore := planAll_new_grown graph root scope before
    obtain ⟨target, answered⟩ :=
      (plan_ok_iff grownBefore request).mpr ((plan_ok_iff .start request).mp alone)
    refine ⟨target, answered, ?_⟩
    rw [run, planAll_append]
    exact planAll_reaches grownBefore request after answered
  obtain ⟨before, after, run⟩ := List.append_of_mem held
  obtain ⟨target, _, reached⟩ := answers run
  refine ⟨target, ?_, ?_⟩
  · intro before after run
    obtain ⟨same, answered, sameReached⟩ := answers run
    rw [reached] at sameReached
    cases sameReached
    exact answered
  · rw [plan_eq_walk grown]
    exact walk_again grown.closed rfl (by rwa [List.nil_append])

end Again

/-! Requests in another order. -/

section Order

variable {graph : RelationGraph} {root : Entity} {scope : JoinScope}
  {asked others : List PathRequest}

theorem met_perm (reordered : asked.Perm others) :
    (met graph root scope asked).Perm (met graph root scope others) :=
  (reordered.flatMap_right _).filter _

theorem keys_perm (reordered : asked.Perm others) :
    (planAll graph (.new root scope) asked).keys.Perm
      (planAll graph (.new root scope) others).keys := by
  have grown := planAll_new_grown graph root scope asked
  have other := planAll_new_grown graph root scope others
  refine (List.perm_ext_iff_of_nodup grown.keys_nodup other.keys_nodup).mpr fun key => ?_
  rw [planAll_new_keys, planAll_new_keys, List.mem_eraseDups, List.mem_eraseDups,
    (met_perm reordered).mem_iff]

/-- The same requests in another order join the same paths, and a renaming of the joined tables
takes each join of the one plan to the join of the same path in the other. A request that can be
planned at all is answered the same each time, and a plan that has met it does not change. -/
theorem planAll_perm (graph : RelationGraph) (root : Entity) (scope : JoinScope)
    (reordered : asked.Perm others) :
    let first := planAll graph (.new root scope) asked
    let second := planAll graph (.new root scope) others
    first.keys.Perm second.keys ∧ (∃ rename, Renames rename first second) ∧
      first.fansOut = second.fansOut ∧
      ∀ request ∈ asked,
        (∃ target, ((new root scope).plan graph request.names request.segments request.group).2 =
          .ok target) →
        ∃ target, (∀ before after, asked = before ++ request :: after →
            ((planAll graph (.new root scope) before).plan graph request.names request.segments
              request.group).2 = .ok target) ∧
          first.plan graph request.names request.segments request.group = (first, .ok target) := by
  intro first second
  have grown : Grown graph root scope first := planAll_new_grown graph root scope asked
  have other : Grown graph root scope second := planAll_new_grown graph root scope others
  have sameKeys : first.keys.Perm second.keys := keys_perm reordered
  exact ⟨sameKeys, ⟨_, renames_of_keys grown other sameKeys⟩, fansOut_of_keys grown other sameKeys,
    fun _ held alone => planAll_again held alone⟩

end Order

end JoinPlan

def Shelter.toyPaths : List PathRequest :=
  [⟨.empty, ["toys", "owner"], "owned"⟩, ⟨.empty, ["toys"], "other"⟩]

/-- From the last path to the first, the other toy is joined before the owned one. -/
theorem JoinPlan.toyPaths_renumbered : ∃ root rename, Shelter.schema.entity "Pet" = .ok root ∧
    let first := planAll Shelter.schema (.new root .conditionGroup) Shelter.toyPaths
    let second := planAll Shelter.schema (.new root .conditionGroup) Shelter.toyPaths.reverse
    Renames rename first second ∧ rename "j1" = "j2" ∧
      ∃ target, first.plan Shelter.schema .empty ["toys", "owner"] "owned" =
        (first, .ok target) := by
  obtain ⟨root, rooted⟩ : ∃ root, Shelter.schema.entity "Pet" = .ok root := ⟨_, rfl⟩
  obtain ⟨_, ⟨rename, renames⟩, _, again⟩ :=
    planAll_perm Shelter.schema root .conditionGroup (List.reverse_perm Shelter.toyPaths).symm
  cases rooted
  refine ⟨_, rename, rfl, renames, ?_, ?_⟩
  · obtain ⟨join, inFirst, inSecond⟩ := renames.joins ⟨"owned", ["toys"]⟩ (by decide)
    have named := congrArg (Option.map Join.binding) inFirst
    have image := congrArg (Option.map Join.binding) inSecond
    have isFirst : join.binding = "j1" := (Option.some.inj named).symm
    rw [← isFirst]
    exact (Option.some.inj image).symm
  · obtain ⟨target, _, same⟩ := again _ List.mem_cons_self ⟨_, rfl⟩
    exact ⟨target, same⟩

end FilterQuery
