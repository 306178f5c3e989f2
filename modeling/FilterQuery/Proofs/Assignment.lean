import FilterQuery.Proofs.PlannedLeaves

/-!
Rows for the paths of a request, without a query: each path that is followed gets a related row, and
a link row where its last relation has a link table. Main statements: the bindings that the joins of
a plan find are the assignments whose rows are linked from path to path, and they show the same row
at the end of each path.
-/

namespace FilterQuery

structure Assignment (Content : Type) where
  related : JoinKey → Row Content
  link : JoinKey → Row Content

namespace Assignment

variable {Content : Type}

/-- The row at the end of a path; the root row itself where no relation is followed. -/
def rowAt (assignment : Assignment Content) (row : Row Content) (within : String)
    (path : List String) : Row Content :=
  if path = [] then row else assignment.related ⟨within, path⟩

def assign (assignment : Assignment Content) (key : JoinKey) (link related : Row Content) :
    Assignment Content where
  related := fun asked => if asked = key then related else assignment.related asked
  link := fun asked => if asked = key then link else assignment.link asked

theorem rowAt_concat (assignment : Assignment Content) (row : Row Content) (within : String)
    (path : List String) (relation : String) :
    assignment.rowAt row within (path ++ [relation]) =
      assignment.related ⟨within, path ++ [relation]⟩ := by
  simp [rowAt]

theorem related_assign (assignment : Assignment Content) (key : JoinKey)
    (link related : Row Content) : (assignment.assign key link related).related key = related := by
  simp [assign]

theorem link_assign (assignment : Assignment Content) (key : JoinKey)
    (link related : Row Content) : (assignment.assign key link related).link key = link := by
  simp [assign]

theorem related_assign_other (assignment : Assignment Content) {key asked : JoinKey}
    (link related : Row Content) (different : asked ≠ key) :
    (assignment.assign key link related).related asked = assignment.related asked := by
  simp [assign, different]

theorem link_assign_other (assignment : Assignment Content) {key asked : JoinKey}
    (link related : Row Content) (different : asked ≠ key) :
    (assignment.assign key link related).link asked = assignment.link asked := by
  simp [assign, different]

theorem rowAt_assign_other (assignment : Assignment Content) {key : JoinKey}
    (row link related : Row Content) {within : String} {path : List String}
    (different : path = [] ∨ (⟨within, path⟩ : JoinKey) ≠ key) :
    (assignment.assign key link related).rowAt row within path =
      assignment.rowAt row within path := by
  unfold rowAt
  split
  · rfl
  · rename_i longer
    exact related_assign_other _ _ _ (different.resolve_left longer)

variable [DecidableEq Content]

/-- The row at the end of a path and the row at the end of the path that is one relation longer are
linked by that relation, through the link row assigned to the longer path. -/
def Links (graph : RelationGraph) (database : Database Content) (root : Entity)
    (assignment : Assignment Content) (row : Row Content) (within : String) (path : List String)
    (relation : String) : Prop :=
  ∃ parent hop, graph.lead root path = .ok parent ∧ graph.hop parent.name relation = .ok hop ∧
    hop.Leads database (assignment.rowAt row within path)
      (assignment.link ⟨within, path ++ [relation]⟩)
      (assignment.related ⟨within, path ++ [relation]⟩)

variable {graph : RelationGraph} {database : Database Content} {root : Entity}

theorem Links.congr {first second : Assignment Content} {row : Row Content} {within : String}
    {path : List String} {relation : String}
    (sameRow : first.rowAt row within path = second.rowAt row within path)
    (sameLink : first.link ⟨within, path ++ [relation]⟩ = second.link ⟨within, path ++ [relation]⟩)
    (sameRelated : first.related ⟨within, path ++ [relation]⟩ =
      second.related ⟨within, path ++ [relation]⟩)
    (links : first.Links graph database root row within path relation) :
    second.Links graph database root row within path relation := by
  obtain ⟨parent, hop, led, leads, linked⟩ := links
  rw [sameRow, sameLink, sameRelated] at linked
  exact ⟨parent, hop, led, leads, linked⟩

end Assignment

namespace JoinPlan

variable {Content : Type} [DecidableEq Content] {graph : RelationGraph}
  {database : Database Content} {root : Entity} {scope : JoinScope} {plan : JoinPlan}

def Linked (graph : RelationGraph) (database : Database Content) (root : Entity) (plan : JoinPlan)
    (assignment : Assignment Content) (row : Row Content) : Prop :=
  ∀ within path relation, ⟨within, path ++ [relation]⟩ ∈ plan.keys →
    assignment.Links graph database root row within path relation

def Shows (plan : JoinPlan) (bindings : Bindings Content) (assignment : Assignment Content)
    (row : Row Content) : Prop :=
  ∀ {within path target}, plan.reached? within path = some target →
    bindings target.binding = assignment.rowAt row within path

theorem Grown.reached_apart (grown : Grown graph root scope plan)
    (plain : ¬ IsGenerated root.table) {within : String} {path : List String} {target : Target}
    (reached : plan.reached? within path = some target) :
    target.binding ≠ plan.nextBinding ∧ target.binding ≠ Join.linkBinding plan.nextBinding := by
  rw [TableName.nextBinding_eq, ← TableName.text_linking rfl]
  rcases grown.reached_binding reached with own | ⟨number, small, named⟩
  · rw [own]
    exact ⟨fun same => plain ⟨_, same.symm⟩, fun same => plain ⟨_, same.symm⟩⟩
  · rw [named]
    constructor
    · apply TableName.text_ne
      intro same
      have numbers := congrArg TableName.number same
      simp only [TableName.ofJoin] at numbers
      omega
    · apply TableName.text_ne
      intro same
      have links := congrArg TableName.isLink same
      simp [TableName.ofJoin, TableName.linking] at links

theorem reached_ne_fresh {within asked : String} {path asking : List String} {relation : String}
    {target : Target} (fresh : plan.joined? ⟨within, path ++ [relation]⟩ = none)
    (reached : plan.reached? asked asking = some target) :
    asking = [] ∨ (⟨asked, asking⟩ : JoinKey) ≠ ⟨within, path ++ [relation]⟩ := by
  by_cases empty : asking = []
  · exact Or.inl empty
  · right
    intro same
    rw [reached?, if_neg empty, same, fresh] at reached
    cases reached

omit [DecidableEq Content] in
theorem Grown.shows_add (grown : Grown graph root scope plan) (plain : ¬ IsGenerated root.table)
    {within : String} {path : List String} {relation : String} {hop : Hop} {parent : String}
    {bindings : Bindings Content} {assignment : Assignment Content} {row link related : Row Content}
    (shows : plan.Shows bindings assignment row)
    (assigned : assignment.related ⟨within, path ++ [relation]⟩ = related) :
    (plan.add ⟨within, path ++ [relation]⟩ (hop.join parent plan.nextBinding)).Shows
      (hop.bindRows plan.nextBinding bindings link related) assignment row := by
  intro asked asking target reached
  rcases reached?_add_cases reached with old | ⟨rfl, rfl, rfl⟩
  · obtain ⟨apart, apartLink⟩ := grown.reached_apart plain old
    rw [Hop.bindRows_other hop bindings link related apart apartLink]
    exact shows old
  · rw [Assignment.rowAt_concat, assigned]
    exact Hop.bindRows_related hop _ bindings link related

theorem Grown.linked_assign (grown : Grown graph root scope plan) {within : String}
    {path : List String} {relation : String} {parent : Target} {hop : Hop}
    {assignment : Assignment Content} {row link related : Row Content}
    (reached : plan.reached? within path = some parent)
    (fresh : plan.joined? ⟨within, path ++ [relation]⟩ = none)
    (leads : graph.hop parent.entity relation = .ok hop)
    (linked : plan.Linked graph database root assignment row)
    (linkedHere : hop.Leads database (assignment.rowAt row within path) link related) :
    (plan.add ⟨within, path ++ [relation]⟩ (hop.join parent.binding plan.nextBinding)).Linked graph
      database root (assignment.assign ⟨within, path ++ [relation]⟩ link related) row := by
  intro asked asking last held
  rw [keys_add, List.mem_append, List.mem_singleton] at held
  rcases held with old | new
  · obtain ⟨shorter, shorterReached⟩ := grown.shorter_joined old
    have different : (⟨asked, asking ++ [last]⟩ : JoinKey) ≠ ⟨within, path ++ [relation]⟩ := by
      intro same
      rw [same] at old
      exact (joined?_eq_none_iff _ _).mp fresh old
    exact (linked _ _ _ old).congr
      (Assignment.rowAt_assign_other _ _ _ _ (reached_ne_fresh fresh shorterReached)).symm
      (Assignment.link_assign_other _ _ _ different).symm
      (Assignment.related_assign_other _ _ _ different).symm
  · obtain ⟨rfl, rfl, rfl⟩ := JoinKey.concat_inj new
    obtain ⟨parentEntity, led, named⟩ := grown.reached_lead reached
    rw [named] at leads
    refine ⟨parentEntity, hop, led, leads, ?_⟩
    rw [Assignment.rowAt_assign_other _ _ _ _ (reached_ne_fresh fresh reached),
      Assignment.link_assign, Assignment.related_assign]
    exact linkedHere

theorem linked_of_found (grown : Grown graph root scope plan) (plain : ¬ IsGenerated root.table)
    {row : Row Content} {found : Bindings Content}
    (member : found ∈ Join.extendAll database plan.joins (Bindings.unbound.bind root.table row)) :
    ∃ assignment : Assignment Content,
      plan.Shows found assignment row ∧ plan.Linked graph database root assignment row := by
  induction grown generalizing found with
  | start =>
      refine ⟨⟨fun _ => row, fun _ => row⟩, ?_, fun _ _ _ held => by cases held⟩
      intro within path target reached
      obtain ⟨rfl, rfl⟩ := reached?_new scope reached
      rw [List.mem_singleton.mp member]
      exact Bindings.bind_same _ _ _
  | @step plan within path relation parent hop before reached fresh leads ih =>
      rw [joins_add, Join.extendAll_append, List.mem_flatMap] at member
      obtain ⟨earlier, earlierMember, extended⟩ := member
      simp only [Join.extendAll, List.mem_flatMap, List.mem_singleton] at extended
      obtain ⟨_, extended, rfl⟩ := extended
      obtain ⟨apart, apartLink⟩ := before.reached_apart plain reached
      rw [Hop.mem_extend _ _ _ _ apart apartLink] at extended
      obtain ⟨link, related, linked, rfl⟩ := extended
      obtain ⟨assignment, shows, linkedBefore⟩ := ih earlierMember
      rw [shows reached] at linked
      refine ⟨assignment.assign ⟨within, path ++ [relation]⟩ link related, ?_, ?_⟩
      · refine before.shows_add plain ?_ (Assignment.related_assign _ _ _ _)
        intro asked asking target old
        rw [Assignment.rowAt_assign_other _ _ _ _ (reached_ne_fresh fresh old)]
        exact shows old
      · exact before.linked_assign reached fresh leads linkedBefore linked

theorem found_of_linked (grown : Grown graph root scope plan) (plain : ¬ IsGenerated root.table)
    {row : Row Content} {assignment : Assignment Content}
    (linked : plan.Linked graph database root assignment row) :
    ∃ found ∈ Join.extendAll database plan.joins (Bindings.unbound.bind root.table row),
      plan.Shows found assignment row := by
  induction grown with
  | start =>
      refine ⟨_, List.mem_singleton_self _, ?_⟩
      intro within path target reached
      obtain ⟨rfl, rfl⟩ := reached?_new scope reached
      exact Bindings.bind_same _ _ _
  | @step plan within path relation parent hop before reached fresh leads ih =>
      simp only [Linked, keys_add, List.mem_append, List.mem_singleton] at linked
      obtain ⟨earlier, member, shows⟩ := ih fun _ _ _ held => linked _ _ _ (Or.inl held)
      obtain ⟨parentEntity, sameHop, led, sameLeads, linkedHere⟩ := linked _ _ _ (Or.inr rfl)
      obtain ⟨sameParent, sameLed, named⟩ := before.reached_lead reached
      rw [led] at sameLed
      cases sameLed
      rw [named, sameLeads] at leads
      cases leads
      rw [← shows reached] at linkedHere
      obtain ⟨apart, apartLink⟩ := before.reached_apart plain reached
      let key : JoinKey := ⟨within, path ++ [relation]⟩
      refine ⟨hop.bindRows plan.nextBinding earlier (assignment.link key) (assignment.related key),
        ?_, before.shows_add plain shows rfl⟩
      · rw [joins_add, Join.extendAll_append, List.mem_flatMap]
        refine ⟨earlier, member, ?_⟩
        simp only [Join.extendAll, List.mem_flatMap, List.mem_singleton]
        exact ⟨_, (Hop.mem_extend _ _ _ _ apart apartLink).mpr ⟨_, _, linkedHere, rfl⟩, rfl⟩

end JoinPlan

end FilterQuery
