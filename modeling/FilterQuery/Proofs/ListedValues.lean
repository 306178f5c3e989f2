import FilterQuery.Proofs.PlanningOrder
import FilterQuery.Proofs.Scoping
import FilterQuery.Proofs.ValueFreedom
import FilterQuery.Sqlite

/-!
A list of values against the same values one by one. Membership in a list and a disjunction of
equalities join the same path once, and compare the same column. They differ in what they compare it
with: an equality coerces its value, and asks for the absence of a content where the value is null,
and a list does neither. Main statement: where no value is null and the store takes each value as it
takes the coerced one, both requests select the same rows.
-/

namespace FilterQuery

/-! Conditions that share a path. -/

namespace JoinPlan

variable {graph : RelationGraph} {root : Entity} {scope : JoinScope} {names : PropertyMap}
  {start : JoinPlan}

theorem Grown.plan_twice (grown : Grown graph root scope start) {segments : List String}
    {group : String} {target : Target}
    (planned : (start.plan graph names segments group).2 = .ok target) :
    (start.plan graph names segments group).1.plan graph names segments group =
      ((start.plan graph names segments group).1, .ok target) := by
  have grownAfter : Grown graph root scope (start.plan graph names segments group).1 :=
    plan_grown grown _ _ _
  have sameRoot : (start.plan graph names segments group).1.root = start.root := by
    rw [grownAfter.root_eq, grown.root_eq]
  rw [plan_walk grownAfter, sameRoot]
  rw [plan_walk grown] at planned grownAfter ⊢
  have atRoot : start.reached? (scope.key group) [] = some start.root := rfl
  have ended := walk_reached atRoot rfl planned
  exact walk_again grownAfter.closed (walk_keeps rfl atRoot) ended

theorem Grown.planLeaves_same (grown : Grown graph root scope start) {leaf : Leaf}
    {rest : List Leaf}
    (same : ∀ other ∈ rest, other.joinSegments = leaf.joinSegments ∧ other.group = leaf.group) :
    start.planLeaves graph names (leaf :: rest) =
      (start.plan graph names leaf.joinSegments leaf.group).2.map fun _ =>
        (start.plan graph names leaf.joinSegments leaf.group).1 := by
  rw [planLeaves_step]
  cases planned : (start.plan graph names leaf.joinSegments leaf.group).2 with
  | error fault => rfl
  | ok target =>
      -- The first condition joins what is missing of the path, and every other finds it joined.
      have again := grown.plan_twice planned
      simp only [bind, Except.bind, Except.map]
      induction rest with
      | nil => rfl
      | cons next rest ih =>
          obtain ⟨⟨sameSegments, sameGroup⟩, sameRest⟩ := List.forall_mem_cons.mp same
          rw [planLeaves_step, sameSegments, sameGroup, again]
          exact ih sameRest

end JoinPlan

namespace Planned

variable {planned : Planned}

def columnAt (planned : Planned) (path : FieldPath) (group : String) : Except Fault ColumnRef := do
  let target ← planned.plan.target planned.names path.relations group
  planned.column target path.attributeName

theorem buildLeaf_single {leaf : Leaf} (single : leaf.operator ≠ .contains) (subqueries : Nat) :
    planned.buildLeaf leaf subqueries =
      (planned.columnAt leaf.path leaf.group >>= onColumn leaf, subqueries) := by
  rw [buildLeaf, Leaf.joinSegments_of_single single, columnAt]
  cases planned.plan.target planned.names leaf.path.relations leaf.group with
  | error fault => rfl
  | ok target => simp [single, bind, Except.bind]

theorem buildGroups_leaves {values : List Value} {leaf : Value → Leaf} {made : Value → Condition}
    {subqueries : Nat}
    (each : ∀ value, planned.buildLeaf (leaf value) subqueries = (.ok (made value), subqueries)) :
    planned.buildGroups (values.map fun value => .leaf (leaf value)) subqueries =
      (.ok (values.map fun value => .group (made value)), subqueries) := by
  induction values with
  | nil => rfl
  | cons value rest ih =>
      rw [List.map_cons, buildGroups, build, each]
      simp only [ih, List.map_cons]

theorem build_listed (path : FieldPath) (group : String) (values : List Value) (subqueries : Nat) :
    (planned.build (.leaf ⟨path, .isIn, .list values, group⟩) subqueries).1 =
      (planned.columnAt path group).map (.member · values) := by
  rw [build, buildLeaf_single (show Operator.isIn ≠ .contains by decide)]
  cases planned.columnAt path group <;> rfl

theorem build_equalities (path : FieldPath) (group : String) (first : Value) (rest : List Value)
    (subqueries : Nat) :
    (planned.build (.composite .or (.leaf ⟨path, .equals, first, group⟩)
      (rest.map fun value => .leaf ⟨path, .equals, value, group⟩)) subqueries).1 =
        (planned.columnAt path group).map fun column =>
          .any ((first :: rest).map fun value => .group (.equals column value)) := by
  have each (value : Value) : planned.buildLeaf ⟨path, .equals, value, group⟩ subqueries =
      (planned.columnAt path group >>= onColumn ⟨path, .equals, value, group⟩, subqueries) :=
    buildLeaf_single (show Operator.equals ≠ .contains by decide) subqueries
  rw [build, build, each]
  cases found : planned.columnAt path group with
  | error fault => rfl
  | ok column =>
      rw [found] at each
      simp only [bind, Except.bind, onColumn] at each ⊢
      rw [buildGroups_leaves each]
      rfl

end Planned

theorem Node.leavesOfAll_leaves {Item : Type} (items : List Item) (leaf : Item → Leaf) :
    leavesOfAll (items.map fun item => .leaf (leaf item)) = items.map leaf := by
  induction items with
  | nil => rfl
  | cons item rest ih =>
      rw [List.map_cons, leavesOfAll, ih, Node.leaves, List.map_cons, List.singleton_append]

namespace Assembler

variable {assembler : Assembler} {root : Entity} {names : PropertyMap}

def joinsAndColumn (assembler : Assembler) (root : Entity) (names : PropertyMap) (path : FieldPath)
    (group : String) : Except Fault (JoinPlan × ColumnRef) := do
  let (plan, reached) :=
    (JoinPlan.new root assembler.settings.joinScope).plan assembler.schema names
      path.relations group
  let _ ← reached
  let column ← (Planned.mk assembler.schema names plan).columnAt path group
  .ok (plan, column)

/-- A tree whose conditions all lie on one path joins this path and speaks of the one column. -/
theorem joinsAndCondition_same {node : Node} {first : Leaf} {rest : List Leaf} {path : FieldPath}
    {group : String} {made : ColumnRef → Condition} (leaves : node.leaves = first :: rest)
    (here : first.joinSegments = path.relations ∧ first.group = group)
    (same : ∀ leaf ∈ rest, leaf.joinSegments = path.relations ∧ leaf.group = group)
    (built : ∀ planned : Planned,
      (planned.build node 0).1 = (planned.columnAt path group).map made) :
    assembler.joinsAndCondition root names (tree [node]) =
      (assembler.joinsAndColumn root names path group).map fun (plan, column) =>
        (plan, some (made column)) := by
  have atStart : JoinPlan.Grown assembler.schema root assembler.settings.joinScope _ := .start
  rw [← here.1, ← here.2] at same
  simp only [tree, joinsAndCondition, leaves, atStart.planLeaves_same same, here,
    joinsAndColumn, built]
  rcases (JoinPlan.new root assembler.settings.joinScope).plan assembler.schema names path.relations
    group with ⟨plan, _ | target⟩
  · rfl
  · simp only [Except.map, bind, Except.bind]
    cases (Planned.mk assembler.schema names plan).columnAt path group <;> rfl

theorem joinsAndCondition_listed (path : FieldPath) (group : String) (values : List Value) :
    assembler.joinsAndCondition root names (tree [.leaf ⟨path, .isIn, .list values, group⟩]) =
      (assembler.joinsAndColumn root names path group).map fun (plan, column) =>
        (plan, some (.member column values)) := by
  let leaf : Leaf := ⟨path, .isIn, .list values, group⟩
  have leaves : (Node.leaf leaf).leaves = [leaf] := rfl
  exact joinsAndCondition_same leaves ⟨rfl, rfl⟩ (List.forall_mem_nil _) fun _ =>
    Planned.build_listed path group values 0

theorem joinsAndCondition_equalities (path : FieldPath) (group : String) (first : Value)
    (rest : List Value) :
    assembler.joinsAndCondition root names
        (tree [.composite .or (.leaf ⟨path, .equals, first, group⟩)
          (rest.map fun value => .leaf ⟨path, .equals, value, group⟩)]) =
      (assembler.joinsAndColumn root names path group).map fun (plan, column) =>
        (plan, some (.any ((first :: rest).map fun value => .group (.equals column value)))) := by
  let leaf (value : Value) : Leaf := ⟨path, .equals, value, group⟩
  have leaves :
      (Node.composite .or (.leaf (leaf first)) (rest.map fun value => .leaf (leaf value))).leaves =
      leaf first :: rest.map leaf := by
    rw [Node.leaves, Node.leavesOfAll_leaves, Node.leaves, List.singleton_append]
  exact joinsAndCondition_same leaves ⟨rfl, rfl⟩
    (List.forall_mem_map.mpr fun _ _ => ⟨rfl, rfl⟩) fun _ =>
    Planned.build_equalities path group first rest 0

theorem assembleNodes_same (assembler : Assembler) {nodes others : List Node} {path : FieldPath}
    {group : String} (made other : ColumnRef → Condition)
    (first : ∀ root names, assembler.joinsAndCondition root names (tree nodes) =
      (assembler.joinsAndColumn root names path group).map fun (plan, column) =>
        (plan, some (made column)))
    (second : ∀ root names, assembler.joinsAndCondition root names (tree others) =
      (assembler.joinsAndColumn root names path group).map fun (plan, column) =>
        (plan, some (other column)))
    (rootName : String) (given : Option PropertyMap) (sort : SortRequest)
    (directions : DirectionRequest) :
    let assembled := assembler.assembleNodes rootName nodes given sort directions
    let assembledOther := assembler.assembleNodes rootName others given sort directions
    (∀ fault, assembled = .error fault ↔ assembledOther = .error fault) ∧
      ∀ plan, assembled = .ok plan → ∃ column, plan.condition = some (made column) ∧
        assembledOther = .ok { plan with condition := some (other column) } := by
  simp only [assembleNodes, first, second]
  cases assembler.schema.entity rootName with
  | error fault => simp [bind, Except.bind]
  | ok root =>
      simp only [bind, Except.bind]
      cases assembler.joinsAndColumn root (assembler.effectiveNames given) path group with
      | error fault => simp [Except.map]
      | ok joined =>
          simp only [Except.map]
          cases assembler.orderClauses root (assembler.effectiveNames given) sort directions with
          | error fault => simp
          | ok orderBy =>
              refine ⟨fun fault => by simp, fun plan assembled => ?_⟩
              cases assembled
              exact ⟨joined.2, rfl, rfl⟩

end Assembler

/-! What is asked of a column. -/

/-- Coercion changes nothing in what the store finds equal to the value. -/
def Store.IgnoresCoercion {Content : Type} (store : Store Content) (value : Value) : Prop :=
  ∀ content, store.compare .equal content value = .yes ↔
    store.compare .equal content value.coerce = .yes

theorem Value.shape_coerce (value : Value) : value.coerce.shape = value.shape := by
  cases value with
  | text written =>
      simp only [coerce, temporal?]
      cases Date.read? written.toList <;> cases DateTime.read? written.toList <;> rfl
  | _ => rfl

section Truth

variable {Content : Type} {store : Store Content} {held : Option Content} {value : Value}

theorem Store.ignoresCoercion_of_unchanged (unchanged : value.coerce = value) :
    store.IgnoresCoercion value := by
  intro content
  rw [unchanged]

theorem Store.compared_eq_yes (single : value.shape = .single) (comparison : Comparison) :
    store.compared comparison held value = .yes ↔
      ∃ content, held = some content ∧ store.compare comparison content value = .yes := by
  cases held with
  | none => simp [compared]
  | some content =>
      cases value with
      | null | list items => cases single
      | _ => simp [compared]

theorem Store.same_of_single (single : value.shape = .single) :
    store.same held value = store.compared .equal held value := by
  cases value with
  | null | list items => cases single
  | _ => rfl

theorem Store.IgnoresCoercion.compared_iff_same (ignores : store.IgnoresCoercion value)
    (single : value.shape = .single) :
    store.compared .equal held value = .yes ↔ store.same held value.coerce = .yes := by
  have alike : value.coerce.shape = .single := value.shape_coerce.trans single
  rw [same_of_single alike, compared_eq_yes single, compared_eq_yes alike]
  simp only [ignores _]

variable [DecidableEq Content] {database : Database Content}

theorem Condition.truth_member_iff {values : List Value}
    (single : ∀ value ∈ values, value.shape = .single)
    (ignores : ∀ value ∈ values, store.IgnoresCoercion value) (column : ColumnRef)
    (bindings : Bindings Content) :
    (member column values).truth store database bindings = .yes ↔
      (any (values.map fun value => .group (.equals column value.coerce))).truth
        store database bindings = .yes := by
  rw [truth_member, truth, truths_eq_map, Truth.any_eq_yes, Truth.any_eq_yes]
  simp only [List.map_map, List.mem_map, exists_exists_and_eq_and, Function.comp_apply,
    truth, truth_equals]
  -- A row is kept for a yes alone, so a no and an unknown need not be told apart.
  refine exists_congr fun value => and_congr_right fun listed => ?_
  exact (ignores value listed).compared_iff_same (single value listed)

theorem QueryPlan.rows_congr {plan : QueryPlan} {condition other : Condition}
    (asks : plan.condition = some condition)
    (same : ∀ bindings, condition.truth store database bindings = .yes ↔
      other.truth store database bindings = .yes) :
    plan.rows store database =
      QueryPlan.rows store database { plan with condition := some other } := by
  have keeps : plan.keeps store database =
      QueryPlan.keeps store database { plan with condition := some other } := by
    funext bindings
    simp only [QueryPlan.keeps, asks, same]
  unfold rows found
  rw [keeps]
  rfl

end Truth

/-! Requests. -/

structure Json.EqualsTakes (json : Json) (value : Value) : Prop where
  decoded : Value.ofJson json = .ok value
  accepted : Operator.equals.accepts value.coerce = true

theorem Value.ofJson_eq_null {json : Json} (decoded : ofJson json = .ok .null) : json = .null := by
  cases json with
  | null => rfl
  | integer number =>
      rw [ofJson] at decoded
      split at decoded <;> cases decoded
  | list items =>
      rw [ofJson] at decoded
      cases items : ofItems items <;> rw [items] at decoded <;> cases decoded
  | _ => cases decoded

theorem Json.EqualsTakes.single {json : Json} {value : Value} (taken : json.EqualsTakes value)
    (present : json ≠ .null) : value.shape = .single := by
  cases value with
  | null => exact absurd (Value.ofJson_eq_null taken.decoded) present
  | list items => cases taken.accepted
  | _ => rfl

theorem Json.exists_equalsTakes {items : List Json}
    (taken : ∀ json ∈ items, ∃ value, json.EqualsTakes value) :
    ∃ values, List.Forall₂ EqualsTakes items values := by
  induction items with
  | nil => exact ⟨[], .nil⟩
  | cons json rest ih =>
      obtain ⟨⟨value, takes⟩, inRest⟩ := List.forall_mem_cons.mp taken
      obtain ⟨values, takesRest⟩ := ih inRest
      exact ⟨value :: values, .cons takes takesRest⟩

namespace Node

variable {standard field : String} {own : Option String}

theorem ofRaw_listed {items : List Json} {values : List Value}
    (decoded : Value.ofItems items = .ok values) :
    ofRaw standard (.leaf field "in" (.list items) own) =
      (FieldPath.parse field).map fun path =>
        .leaf ⟨path, .isIn, .list values, own.getD standard⟩ := by
  have decodedList : Value.ofJson (.list items) = .ok (.list values) := by
    rw [Value.ofJson, decoded, Except.map]
  have known : Operator.ofSymbol? "in" = some .isIn := Operator.ofSymbol?_symbol .isIn
  rw [ofRaw, leafOfRaw_eq_map known decodedList rfl]
  cases FieldPath.parse field <;> rfl

theorem ofRaw_equality {json : Json} {value : Value} (taken : json.EqualsTakes value) :
    ofRaw standard (.leaf field "=" json own) =
      (FieldPath.parse field).map fun path =>
        .leaf ⟨path, .equals, value.coerce, own.getD standard⟩ := by
  have known : Operator.ofSymbol? "=" = some .equals := Operator.ofSymbol?_symbol .equals
  rw [ofRaw, leafOfRaw_eq_map known taken.decoded taken.accepted]
  cases FieldPath.parse field <;> rfl

theorem ofRawAll_equalities {path : FieldPath} (parsed : FieldPath.parse field = .ok path)
    {items : List Json} {values : List Value} (taken : List.Forall₂ Json.EqualsTakes items values) :
    ofRawAll standard (items.map fun json => .leaf field "=" json own) =
      .ok (values.map fun value => .leaf ⟨path, .equals, value.coerce, own.getD standard⟩) := by
  induction taken with
  | nil => rfl
  | cons takes _ ih =>
      rw [List.map_cons, ofRawAll, ofRaw_equality takes, parsed, ih]
      rfl

theorem ofRaw_equalities {json : Json} {items : List Json} {value : Value} {values : List Value}
    (takes : json.EqualsTakes value) (taken : List.Forall₂ Json.EqualsTakes items values) :
    ofRaw standard (.composite "or" ((json :: items).map fun json => .leaf field "=" json own)) =
      (FieldPath.parse field).map fun path =>
        .composite .or (.leaf ⟨path, .equals, value.coerce, own.getD standard⟩)
          ((values.map (·.coerce)).map fun value => .leaf ⟨path, .equals, value,
            own.getD standard⟩) := by
  rw [List.map_cons, ofRaw, ofRaw_equality takes]
  cases parsed : FieldPath.parse field with
  | error fault => rfl
  | ok path =>
      rw [ofRawAll_equalities parsed taken]
      simp only [List.map_map]
      rfl

end Node

namespace Assembler

theorem assemble_single (assembler : Assembler) (rootName : String) (request : Request)
    (entry : RawFilter) :
    assembler.assemble rootName (request.withFilters [entry]) =
      (Node.ofRaw assembler.settings.defaultGroup entry) >>= fun node =>
        assembler.assembleNodes rootName [node] request.names request.sort request.directions := by
  simp only [assemble, Request.withFilters, Node.ofRawAll]
  cases Node.ofRaw assembler.settings.defaultGroup entry <;> rfl

/-- Membership in a list fails as the disjunction of the equalities with its values does. Where no
value is null and the store takes each value as it takes the coerced one, both select the same
rows. -/
theorem rows_listed_eq (assembler : Assembler) (rootName : String) (request : Request)
    (field : String) (own : Option String) {items : List Json} (nonempty : items ≠ [])
    (taken : ∀ json ∈ items, ∃ value, json.EqualsTakes value) :
    let listed := assembler.assemble rootName
      (request.withFilters [.leaf field "in" (.list items) own])
    let equalities := assembler.assemble rootName
      (request.withFilters [.composite "or" (items.map fun json => .leaf field "=" json own)])
    (∀ fault, listed = .error fault ↔ equalities = .error fault) ∧
      ∀ plan, listed = .ok plan → ∃ other, equalities = .ok other ∧
        ∀ {Content : Type} [DecidableEq Content] (store : Store Content)
          (database : Database Content),
          (∀ json ∈ items, json ≠ .null ∧
            ∀ value, json.EqualsTakes value → store.IgnoresCoercion value) →
          plan.rows store database = other.rows store database := by
  intro listed equalities
  obtain ⟨_ | ⟨first, rest⟩, takes⟩ := Json.exists_equalsTakes taken
  · exact absurd (List.forall₂_nil_right_iff.mp takes) nonempty
  · obtain ⟨json, others, takesFirst, takesRest, rfl⟩ := List.forall₂_cons_right_iff.mp takes
    have decoded : Value.ofItems (json :: others) = .ok (first :: rest) :=
      Value.ofItems_ok_iff.mpr (takes.imp fun _ _ takes => takes.decoded)
    simp only [listed, equalities, assemble_single, Node.ofRaw_listed decoded,
      Node.ofRaw_equalities takesFirst takesRest]
    cases FieldPath.parse field with
    | error fault => simp [Except.map, bind, Except.bind]
    | ok path =>
        let group := own.getD assembler.settings.defaultGroup
        obtain ⟨sameFaults, sameParts⟩ := assembler.assembleNodes_same
          (fun column => .member column (first :: rest))
          (fun column => .any ((first.coerce :: rest.map (·.coerce)).map fun value =>
            .group (.equals column value)))
          (fun _ _ => joinsAndCondition_listed path group (first :: rest))
          (fun _ _ => joinsAndCondition_equalities path group first.coerce (rest.map (·.coerce)))
          rootName request.names request.sort request.directions
        refine ⟨sameFaults, fun plan assembled => ?_⟩
        obtain ⟨column, asks, assembledOther⟩ := sameParts plan assembled
        refine ⟨_, assembledOther, fun {Content _} store database each => ?_⟩
        have apart (value : Value) (listed : value ∈ first :: rest) :
            value.shape = .single ∧ store.IgnoresCoercion value := by
          obtain ⟨json, asked, takesValue⟩ := Formula.exists_of_forall₂ takes listed
          exact ⟨takesValue.single (each json asked).1, (each json asked).2 value takesValue⟩
        refine QueryPlan.rows_congr asks fun bindings => ?_
        rw [Condition.truth_member_iff (fun value listed => (apart value listed).1)
          fun value listed => (apart value listed).2]
        simp [Function.comp_def]

theorem kaya_listed : ∃ plan other,
    Shelter.assembler.assemble "Pet"
        { filters := [.leaf "name" "in" (.list [.text "Rex", .text "Kaya"]) none] } = .ok plan ∧
      Shelter.assembler.assemble "Pet"
          { filters :=
            [.composite "or" [Shelter.asks "name" "=" "Rex", Shelter.asks "name" "=" "Kaya"]] } =
        .ok other ∧
      plan.rows Shelter.texts Shelter.database = [Shelter.kaya] ∧
        other.rows Shelter.texts Shelter.database = [Shelter.kaya] := by
  let items : List Json := [.text "Rex", .text "Kaya"]
  obtain ⟨plan, assembled, found⟩ : ∃ plan,
      Shelter.assembler.assemble "Pet" { filters := [.leaf "name" "in" (.list items) none] } =
        .ok plan ∧
        plan.rows Shelter.texts Shelter.database = [Shelter.kaya] := ⟨_, rfl, by decide +kernel⟩
  have taken : ∀ json ∈ items, ∃ value, json.EqualsTakes value :=
    List.forall_mem_cons.mpr ⟨⟨.text "Rex", rfl, rfl⟩,
      List.forall_mem_singleton.mpr ⟨.text "Kaya", rfl, rfl⟩⟩
  obtain ⟨_, same⟩ :=
    rows_listed_eq Shelter.assembler "Pet" {} "name" none (List.cons_ne_nil _ _) taken
  obtain ⟨other, assembledOther, sameRows⟩ := same plan assembled
  refine ⟨plan, other, assembled, assembledOther, found, ?_⟩
  rw [← sameRows Shelter.texts Shelter.database, found]
  have each (name : String) (unchanged : (Value.text name).coerce = .text name) :
      Json.text name ≠ .null ∧
        ∀ value, (Json.text name).EqualsTakes value → Shelter.texts.IgnoresCoercion value := by
    refine ⟨by simp, fun value takes => ?_⟩
    cases takes.decoded
    exact Store.ignoresCoercion_of_unchanged unchanged
  exact List.forall_mem_cons.mpr ⟨each "Rex" rfl, List.forall_mem_singleton.mpr (each "Kaya" rfl)⟩

end Assembler

/-! Where the two differ. -/

/-- An SQLite store finds a cell equal to a value when it is the cell that the value is bound as.
Orders and patterns are left out. -/
def Sqlite.store : Store Cell where
  compare := fun comparison held value =>
    match comparison with
    | .equal => .of (held = bind value)
    | .notEqual => .of (held ≠ bind value)
    | _ => .unknown
  like := fun _ _ => .unknown

namespace Shelter

def visitSchema : Schema :=
  .ofEntities [(Entity.new "Visit" "visits").withAttribute "begun"]

def begun : Row Sqlite.Cell :=
  ⟨[("id", some (.integer 1)), ("begun", some (.text "2018-12-15 08:00:23"))]⟩

def announced : Row Sqlite.Cell :=
  ⟨[("id", some (.integer 2)), ("begun", none)]⟩

def visits : Database Sqlite.Cell
  | "visits" => [begun, announced]
  | _ => []

end Shelter

/-- The equalities find the visit without a beginning and the visit that began at the given time,
and the list finds neither: it is bound as it is written, with a letter between date and time where
the store has a blank. -/
theorem Assembler.visits_listed_in_vain :
    let items : List Json := [.null, .text "2018-12-15T08:00:23"]
    (∀ json ∈ items, ∃ value, json.EqualsTakes value) ∧
      ∃ plan other,
        (Assembler.mk Shelter.visitSchema {}).assemble "Visit"
            { filters := [.leaf "begun" "in" (.list items) none] } = .ok plan ∧
          (Assembler.mk Shelter.visitSchema {}).assemble "Visit"
              { filters := [.composite "or" (items.map fun json => .leaf "begun" "=" json none)] } =
                .ok other ∧
            plan.rows Sqlite.store Shelter.visits = [] ∧
              other.rows Sqlite.store Shelter.visits = [Shelter.begun, Shelter.announced] := by
  refine ⟨?taken, _, _, rfl, rfl, by decide +kernel, by decide +kernel⟩
  case taken =>
    exact List.forall_mem_cons.mpr ⟨⟨.null, rfl, rfl⟩,
      List.forall_mem_singleton.mpr ⟨.text "2018-12-15T08:00:23", rfl, by decide⟩⟩

end FilterQuery
