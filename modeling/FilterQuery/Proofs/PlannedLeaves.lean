import FilterQuery.Proofs.JoinedPaths

/-!
The plan for the conditions of a request. Main statements: all of them can be planned exactly when
the relations of each lead somewhere; and then the plan has joined what lies along their relations,
each in its own scope, and nothing else.
-/

namespace FilterQuery

def Leaf.trail (names : PropertyMap) (leaf : Leaf) : List String :=
  leaf.joinSegments.map names.resolve

namespace JoinPlan

variable {graph : RelationGraph} {root : Entity} {scope : JoinScope} {names : PropertyMap}

theorem target_eq (names : PropertyMap) (plan : JoinPlan) (segments : List String)
    (group : String) :
    plan.target names segments group =
      match plan.reached? (plan.scope.key group) (segments.map names.resolve) with
      | some target => .ok target
      | none => .error (.internal (.unplannedPath segments group)) := by
  cases segments with
  | nil => rfl
  | cons first rest => rfl

theorem target_ok_iff {plan : JoinPlan} {names : PropertyMap} {segments : List String}
    {group : String} {target : Target} :
    plan.target names segments group = .ok target ↔
      plan.reached? (plan.scope.key group) (segments.map names.resolve) = some target := by
  rw [target_eq]
  cases plan.reached? (plan.scope.key group) (segments.map names.resolve) <;> simp

theorem plan_eq {plan : JoinPlan} (grown : Grown graph root scope plan) (leaf : Leaf) :
    plan.plan graph names leaf.joinSegments leaf.group =
      walk graph (scope.key leaf.group) plan [] plan.root (leaf.trail names) :=
  plan_walk grown names leaf.joinSegments leaf.group

/-- The relation lies along the path of one of the conditions, in the scope of that condition. -/
def Occurs (names : PropertyMap) (scope : JoinScope) (leaves : List Leaf) (within : String)
    (path : List String) (relation : String) : Prop :=
  ∃ leaf ∈ leaves, scope.key leaf.group = within ∧ path ++ [relation] <+: leaf.trail names

structure Covers (graph : RelationGraph) (root : Entity) (scope : JoinScope) (names : PropertyMap)
    (leaves : List Leaf) (start after : JoinPlan) : Prop where
  grown : Grown graph root scope after
  keeps : ∀ {within path target}, start.reached? within path = some target →
    after.reached? within path = some target
  reaches : ∀ leaf ∈ leaves, ∃ target,
    after.reached? (scope.key leaf.group) (leaf.trail names) = some target
  joins_only : ∀ key ∈ after.keys, key ∈ start.keys ∨
    ∃ path relation, key = ⟨key.scope, path ++ [relation]⟩ ∧
      Occurs names scope leaves key.scope path relation

theorem planLeaves_step (start : JoinPlan) (leaf : Leaf) (rest : List Leaf) :
    start.planLeaves graph names (leaf :: rest) = (do
      let _ ← (start.plan graph names leaf.joinSegments leaf.group).2
      (start.plan graph names leaf.joinSegments leaf.group).1.planLeaves graph names rest) := by
  rw [planLeaves]
  cases start.plan graph names leaf.joinSegments leaf.group with
  | mk next outcome => cases outcome <;> rfl

theorem planLeaves_cons (start after : JoinPlan) (leaf : Leaf) (rest : List Leaf) :
    start.planLeaves graph names (leaf :: rest) = .ok after ↔
      (∃ target, (start.plan graph names leaf.joinSegments leaf.group).2 = .ok target) ∧
        (start.plan graph names leaf.joinSegments leaf.group).1.planLeaves graph names rest =
          .ok after := by
  rw [planLeaves_step, bind_ok_iff, exists_and_right]

theorem planLeaves_covers {leaves : List Leaf} {start after : JoinPlan}
    (grown : Grown graph root scope start)
    (planned : start.planLeaves graph names leaves = .ok after) :
    Covers graph root scope names leaves start after := by
  induction leaves generalizing start with
  | nil =>
      cases planned
      exact ⟨grown, id, by simp, fun key held => Or.inl held⟩
  | cons leaf rest ih =>
      rw [planLeaves_cons, plan_eq grown] at planned
      obtain ⟨⟨target, ended⟩, later⟩ := planned
      have atRoot : start.reached? (scope.key leaf.group) [] = some start.root := rfl
      obtain ⟨grownAfter, keeps, reaches, joinsOnly⟩ := ih (walk_grown grown atRoot _) later
      refine ⟨grownAfter, fun found => keeps (walk_keeps rfl found), ?_, ?_⟩
      · intro other held
        rcases List.mem_cons.mp held with rfl | inRest
        · exact ⟨target, keeps (walk_reached atRoot rfl ended)⟩
        · exact reaches other inRest
      · intro key held
        rcases joinsOnly key held with before | ⟨path, relation, same, other, inRest, along⟩
        · apply (walk_keys grown atRoot _ before).imp id
          rintro ⟨path, relation, along, rfl⟩
          exact ⟨path, relation, rfl, leaf, List.mem_cons_self, rfl, along⟩
        · exact Or.inr ⟨path, relation, same, other, List.mem_cons_of_mem _ inRest, along⟩

/-- A plan that starts with nothing has joined exactly what lies along the paths. -/
theorem Covers.mem_keys_iff {leaves : List Leaf} {after : JoinPlan}
    (covers : Covers graph root scope names leaves (.new root scope) after) (within : String)
    (path : List String) (relation : String) :
    ⟨within, path ++ [relation]⟩ ∈ after.keys ↔ Occurs names scope leaves within path relation := by
  constructor
  · intro held
    rcases covers.joins_only _ held with before | ⟨other, last, same, occurs⟩
    · cases before
    · obtain ⟨_, rfl, rfl⟩ := JoinKey.concat_inj same
      exact occurs
  · rintro ⟨leaf, held, rfl, rest, whole⟩
    obtain ⟨target, reached⟩ := covers.reaches leaf held
    rw [← whole] at reached
    obtain ⟨shorter, joined⟩ := covers.grown.closed reached
    rw [reached?_concat] at joined
    exact mem_keys_of_joined joined

theorem ok_iff_of_map {First Second Shown : Type} {first : Except Fault First}
    {second : Except Fault Second} {showFirst : First → Shown} {showSecond : Second → Shown}
    (same : first.map showFirst = second.map showSecond) :
    (∃ result, first = .ok result) ↔ ∃ result, second = .ok result := by
  cases first <;> cases second <;> simp [Except.map] at same ⊢

theorem planLeaves_ok_iff {leaves : List Leaf} {start : JoinPlan}
    (grown : Grown graph root scope start) :
    (∃ after, start.planLeaves graph names leaves = .ok after) ↔
      ∀ leaf ∈ leaves, ∃ entity, graph.lead root (leaf.trail names) = .ok entity := by
  induction leaves generalizing start with
  | nil => simp [planLeaves]
  | cons leaf rest ih =>
      simp only [planLeaves_cons, exists_and_left, List.forall_mem_cons,
        ih (plan_grown grown names _ _),
        ok_iff_of_map (plan_entity grown names leaf.joinSegments leaf.group)]
      rfl

end JoinPlan

end FilterQuery
