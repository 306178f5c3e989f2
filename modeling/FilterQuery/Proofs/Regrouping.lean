import FilterQuery.Proofs.ChangedLeaves
import Mathlib.Logic.Equiv.Basic

/-!
Conditions put into other groups. A group is nothing but a name under which paths are joined: an
injective change of the names changes the keys of a plan and nothing else. Main statement: the
global scope compiles a request as the scope of groups does when all its conditions stand in one
group.
-/

namespace FilterQuery

def Leaf.inGroup (group : String) (leaf : Leaf) : Leaf :=
  { leaf with group := group }

namespace RawFilter

mutual

/-- The entry with the same group for all its conditions, or with none. -/
def regrouped (own : Option String) : RawFilter → RawFilter
  | .leaf field op value _ => .leaf field op value own
  | .composite op children => .composite op (regroupedAll own children)

def regroupedAll (own : Option String) : List RawFilter → List RawFilter
  | [] => []
  | entry :: rest => entry.regrouped own :: regroupedAll own rest

end

end RawFilter

namespace Node

variable (standard other : String) (own : Option String)

theorem leafOfRaw_inGroup (field op first second : String) (value : Json) :
    leafOfRaw field op value first =
      (leafOfRaw field op value second).map (Leaf.inGroup first) := by
  unfold leafOfRaw
  cases Operator.ofSymbol? op with
  | none => rfl
  | some operator =>
      cases Value.ofJson value with
      | error number => rfl
      | ok value =>
          simp only [Leaf.of, bind, Except.bind]
          cases FieldPath.parse field with
          | error fault => rfl
          | ok path =>
              simp only
              split <;> rfl

mutual

theorem ofRaw_regrouped : (entry : RawFilter) →
    ofRaw standard (entry.regrouped own) =
      (ofRaw other entry).map (changed (Leaf.inGroup (own.getD standard)))
  | .leaf field op value group => by
      rw [RawFilter.regrouped, ofRaw, ofRaw, leafOfRaw_inGroup field op _ (group.getD other)]
      cases leafOfRaw field op value (group.getD other) <;> rfl
  | .composite op [] => rfl
  | .composite op (first :: rest) => by
      rw [RawFilter.regrouped, RawFilter.regroupedAll, ofRaw, ofRaw, ofRaw_regrouped first,
        ofRawAll_regrouped rest]
      simp only [bind, Except.bind]
      cases Combinator.parse op with
      | error fault => rfl
      | ok combinator =>
          cases ofRaw other first with
          | error fault => rfl
          | ok node => cases ofRawAll other rest <;> rfl

theorem ofRawAll_regrouped : (entries : List RawFilter) →
    ofRawAll standard (RawFilter.regroupedAll own entries) =
      (ofRawAll other entries).map (changedAll (Leaf.inGroup (own.getD standard)))
  | [] => rfl
  | entry :: rest => by
      rw [RawFilter.regroupedAll, ofRawAll, ofRawAll, ofRaw_regrouped entry,
        ofRawAll_regrouped rest]
      simp only [bind, Except.bind]
      cases ofRaw other entry with
      | error fault => rfl
      | ok node => cases ofRawAll other rest <;> rfl

end

end Node

/-! Plans under other names of scopes. -/

def JoinKey.moved (move : String → String) (key : JoinKey) : JoinKey :=
  ⟨move key.scope, key.path⟩

theorem JoinKey.moved_injective {move : String → String} (injective : Function.Injective move) :
    Function.Injective (moved move) := by
  rintro ⟨within, path⟩ ⟨asked, asking⟩ same
  obtain ⟨sameScope, samePath⟩ := JoinKey.mk.inj same
  exact congrArg₂ JoinKey.mk (injective sameScope) samePath

namespace JoinPlan

def rescoped (scope : JoinScope) (move : String → String) (plan : JoinPlan) : JoinPlan :=
  { plan with
    scope := scope
    joined := plan.joined.map fun (key, target) => (key.moved move, target) }

theorem add_rescoped (other : JoinScope) (move : String → String) (plan : JoinPlan) (key : JoinKey)
    (join : Join) :
    (plan.rescoped other move).add (key.moved move) join =
      (plan.add key join).rescoped other move := by
  simp [rescoped, add]

variable {graph : RelationGraph} {root : Entity} {scope : JoinScope} {names : PropertyMap}
  {plan : JoinPlan} (other : JoinScope) {move : String → String}
  (injective : Function.Injective move)

include injective

theorem joined?_rescoped (plan : JoinPlan) (key : JoinKey) :
    (plan.rescoped other move).joined? (key.moved move) = plan.joined? key := by
  simp only [joined?, rescoped, List.find?_map, Option.map_map, Function.comp_def,
    (JoinKey.moved_injective injective).eq_iff]

theorem walk_rescoped (within : String) (plan : JoinPlan) (walked : List String) (current : Target)
    (path : List String) :
    walk graph (move within) (plan.rescoped other move) walked current path =
      ((walk graph within plan walked current path).1.rescoped other move,
        (walk graph within plan walked current path).2) := by
  induction path generalizing plan walked current with
  | nil => rfl
  | cons relation rest ih =>
      have found := joined?_rescoped other injective plan ⟨within, walked ++ [relation]⟩
      have hops : (plan.rescoped other move).hop graph current relation =
          plan.hop graph current relation :=
        rfl
      have added := add_rescoped other move plan ⟨within, walked ++ [relation]⟩
      simp only [JoinKey.moved] at found added
      simp only [walk, found, hops, added]
      cases plan.joined? ⟨within, walked ++ [relation]⟩ with
      | some target => exact ih plan _ target
      | none =>
          cases plan.hop graph current relation with
          | error fault => rfl
          | ok join => exact ih _ _ join.target

theorem planLeaves_rescoped (grown : Grown graph root scope plan) {leaves : List Leaf}
    {group : String} (keyed : ∀ leaf ∈ leaves, other.key group = move (scope.key leaf.group)) :
    (plan.rescoped other move).planLeaves graph names (leaves.map (Leaf.inGroup group)) =
      (plan.planLeaves graph names leaves).map (rescoped other move) := by
  induction leaves generalizing plan with
  | nil => rfl
  | cons leaf rest ih =>
      rw [List.forall_mem_cons] at keyed
      have same : (plan.rescoped other move).plan graph names (leaf.inGroup group).joinSegments
            (leaf.inGroup group).group =
          ((plan.plan graph names leaf.joinSegments leaf.group).1.rescoped other move,
            (plan.plan graph names leaf.joinSegments leaf.group).2) := by
        rw [plan_eq grown, ← walk_rescoped other injective, ← keyed.1]
        rfl
      rw [List.map_cons, planLeaves_step, planLeaves_step, same,
        ih (plan_grown grown names leaf.joinSegments leaf.group) keyed.2]
      cases (plan.plan graph names leaf.joinSegments leaf.group).2 <;> rfl

theorem target_rescoped {segments : List String} {group asked : String} {target : Target}
    (keyed : other.key asked = move (plan.scope.key group))
    (found : plan.target names segments group = .ok target) :
    (plan.rescoped other move).target names segments asked = .ok target := by
  cases segments with
  | nil => exact found
  | cons first rest =>
      have same := joined?_rescoped other injective plan
        ⟨plan.scope.key group, (first :: rest).map names.resolve⟩
      rw [JoinKey.moved, ← keyed] at same
      have scopeEq : (plan.rescoped other move).scope = other := rfl
      simp only [JoinPlan.target, scopeEq] at found ⊢
      rw [same]
      split at found
      · exact found
      · cases found

end JoinPlan

theorem Planned.buildLeaf_inGroup {graph : RelationGraph} {names : PropertyMap}
    {plan moved : JoinPlan} {leaf : Leaf} {group : String} {target : Target}
    (found : plan.target names leaf.joinSegments leaf.group = .ok target)
    (kept : moved.target names leaf.joinSegments group = .ok target) (subqueries : Nat) :
    (Planned.mk graph names moved).buildLeaf (leaf.inGroup group) subqueries =
      (Planned.mk graph names plan).buildLeaf leaf subqueries := by
  have keptLeaf : moved.target names (leaf.inGroup group).joinSegments (leaf.inGroup group).group =
      .ok target := kept
  simp only [buildLeaf, found, keptLeaf]
  rfl

namespace Assembler

theorem mirrors_inGroup {schema : Schema} {settings other : Settings} {names : PropertyMap}
    {leaves : List Leaf} {group : String} {move : String → String}
    (injective : Function.Injective move)
    (keyed : ∀ leaf ∈ leaves, other.joinScope.key group = move (settings.joinScope.key leaf.group))
    (root : Entity) :
    Mirrors schema settings other root names names (Leaf.inGroup group) leaves
      (JoinPlan.rescoped other.joinScope move) where
  root_kept _ := rfl
  joins_kept _ := rfl
  start := rfl
  plans := JoinPlan.planLeaves_rescoped _ injective .start keyed
  compiles := by
    intro joined planned leaf held subqueries
    have covers := JoinPlan.planLeaves_covers .start planned
    obtain ⟨target, found⟩ := covers.target_ok held
    have sameKey : other.joinScope.key group = move (joined.scope.key leaf.group) := by
      rw [covers.grown.scope_eq, keyed leaf held]
    exact Planned.buildLeaf_inGroup found
      (JoinPlan.target_rescoped _ injective sameKey found) subqueries

/-- Under the global scope a request has the outcome that it has under the scope of groups with all
its conditions in one group, be this one that they name or the default. -/
theorem assemble_global_eq (schema : Schema) (settings : Settings) (rootName : String)
    (request : Request) (own : Option String) (standard : String) :
    (Assembler.mk schema { settings with joinScope := .global }).assemble rootName request =
      (Assembler.mk schema
          { settings with
            joinScope := .conditionGroup
            defaultGroup := standard }).assemble rootName
        (request.withFilters (RawFilter.regroupedAll own request.filters)) := by
  simp only [assemble, Request.withFilters, Node.ofRawAll_regrouped _ settings.defaultGroup own]
  cases Node.ofRawAll settings.defaultGroup request.filters with
  | error fault => rfl
  | ok nodes =>
      -- The one scope is the empty name in the first run and the group in the second.
      have keyed : ∀ leaf ∈ Node.leavesOfAll nodes,
          JoinScope.conditionGroup.key (own.getD standard) =
          Equiv.swap "" (own.getD standard) (JoinScope.global.key leaf.group) :=
        fun _ _ => (Equiv.swap_apply_left _ _).symm
      symm
      exact assembleNodes_changed rootName rfl
        (mirrors_inGroup (Equiv.injective _) keyed) fun _ => rfl

end Assembler

end FilterQuery
