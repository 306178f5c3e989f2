import FilterQuery.Join
import FilterQuery.Text.Digits

/-!
The joins of one query. Relation paths are joined once in each scope: a path planned again, or a
longer path that starts with it, uses the joins that are there. Planning goes on to the first step
that fails and keeps the steps before it.
-/

namespace FilterQuery

inductive JoinScope where
  /-- Conditions of different groups may hold of different related rows. -/
  | conditionGroup
  /-- All conditions speak of the same related rows. -/
  | global
  deriving DecidableEq, Repr

namespace JoinScope

def name : JoinScope → String
  | .conditionGroup => "condition_group"
  | .global => "global"

def ofName? (name : String) : Option JoinScope :=
  if name = "condition_group" then some .conditionGroup
  else if name = "global" then some .global
  else none

def key (scope : JoinScope) (group : String) : String :=
  match scope with
  | .conditionGroup => group
  | .global => ""

end JoinScope

structure JoinKey where
  scope : String
  path : List String
  deriving DecidableEq, Repr

structure JoinPlan where
  scope : JoinScope
  root : Target
  joins : List Join
  joined : List (JoinKey × Target)
  deriving Repr

namespace JoinPlan

/-- The root table is bound to its own name. -/
def new (root : Entity) (scope : JoinScope) : JoinPlan :=
  ⟨scope, ⟨root.name, root.table⟩, [], []⟩

def joined? (plan : JoinPlan) (key : JoinKey) : Option Target :=
  (plan.joined.find? (·.1 = key)).map (·.2)

/-- A root row may match several rows of a joined table. -/
def fansOut (plan : JoinPlan) : Bool :=
  plan.joins.any (·.kind.isMany)

def nextBinding (plan : JoinPlan) : String :=
  "j" ++ Text.naturalText (plan.joins.length + 1)

def add (plan : JoinPlan) (key : JoinKey) (join : Join) : JoinPlan :=
  { plan with joins := plan.joins ++ [join], joined := plan.joined ++ [(key, join.target)] }

def hop (graph : RelationGraph) (plan : JoinPlan) (current : Target) (relation : String) :
    Except Fault Join := do
  let declared ← graph.relation current.entity relation
  Join.resolve graph current declared plan.nextBinding

/-- Follows relations from a path already walked; the result comes with the plan as far as it
got. -/
def walk (graph : RelationGraph) (scope : String) (plan : JoinPlan) (walked : List String)
    (current : Target) : List String → JoinPlan × Except Fault Target
  | [] => (plan, .ok current)
  | relation :: rest =>
      let key : JoinKey := ⟨scope, walked ++ [relation]⟩
      match plan.joined? key with
      | some target => walk graph scope plan key.path target rest
      | none =>
          match plan.hop graph current relation with
          | .error fault => (plan, .error fault)
          | .ok join => walk graph scope (plan.add key join) key.path join.target rest

def plan (graph : RelationGraph) (names : PropertyMap) (plan : JoinPlan) (segments : List String)
    (group : String) : JoinPlan × Except Fault Target :=
  walk graph (plan.scope.key group) plan [] plan.root (segments.map names.resolve)

def target (names : PropertyMap) (plan : JoinPlan) (segments : List String) (group : String) :
    Except Fault Target :=
  match segments with
  | [] => .ok plan.root
  | _ :: _ =>
      match plan.joined? ⟨plan.scope.key group, segments.map names.resolve⟩ with
      | some target => .ok target
      | none => .error (.internal (.unplannedPath segments group))

end JoinPlan

end FilterQuery
