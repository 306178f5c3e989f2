import FilterQuery.Proofs.ChangedLeaves
import FilterQuery.Proofs.Faults

/-!
A map of names does nothing but rename. Every segment of a path and every requested name of the
order is looked up in it once. Main statement: a request with a map has the outcome of the same
request written in schema names, with a map that has no entries.
-/

namespace FilterQuery

/-! The renamed request. -/

def IsSegment (name : String) : Prop :=
  name ≠ "" ∧ '.' ∉ name.toList

namespace PropertyMap

def Proper (names : PropertyMap) : Prop :=
  ∀ name ∈ names.names.contents, IsSegment name

def renamedField (names : PropertyMap) (field : String) : String :=
  Text.joined (String.singleton '.') ((Text.pieces '.' field).map names.resolve)

theorem Proper.resolve {names : PropertyMap} (proper : names.Proper) {name : String}
    (segment : IsSegment name) : IsSegment (names.resolve name) := by
  unfold PropertyMap.resolve
  cases found : names.names.find? name with
  | none => exact segment
  | some image => exact proper image (Dictionary.mem_contents_of_find? found)

theorem map_resolve_empty (segments : List String) : segments.map empty.resolve = segments :=
  List.map_id segments

end PropertyMap

def FieldPath.renamed (names : PropertyMap) (path : FieldPath) : FieldPath :=
  ⟨path.relations.map names.resolve, names.resolve path.attributeName⟩

def Leaf.renamed (names : PropertyMap) (leaf : Leaf) : Leaf :=
  { leaf with path := leaf.path.renamed names }

namespace RawFilter

mutual

def renamed (names : PropertyMap) : RawFilter → RawFilter
  | .leaf field op value group => .leaf (names.renamedField field) op value group
  | .composite op children => .composite op (renamedAll names children)

def renamedAll (names : PropertyMap) : List RawFilter → List RawFilter
  | [] => []
  | entry :: rest => entry.renamed names :: renamedAll names rest

end

end RawFilter

def SortKey.renamed (names : PropertyMap) : SortKey → SortKey
  | .requested name => .requested (names.resolve name)
  | .declared name => .declared name

def SortRequest.renamed (names : PropertyMap) (sort : SortRequest) : SortRequest :=
  .listed (sort.keys.map (·.renamed names))

/-! Renamed texts are read as renamed conditions. -/

section Texts

variable {names : PropertyMap}

theorem FieldPath.ofSegments_renamed (names : PropertyMap) (first : String) (rest : List String) :
    ofSegments (names.resolve first) (rest.map names.resolve) =
      (ofSegments first rest).renamed names := by
  induction rest generalizing first with
  | nil => rfl
  | cons next rest ih => simp only [List.map_cons, ofSegments, ih, renamed]

theorem FieldPath.parse_renamedField (proper : names.Proper) {field : String} {path : FieldPath}
    (parsed : parse field = .ok path) :
    parse (names.renamedField field) = .ok (path.renamed names) := by
  obtain ⟨first, rest, cut, full, rfl⟩ := parse_ok_iff.mp parsed
  have undotted := Text.separator_not_mem_pieces '.' field
  rw [cut] at undotted
  have proper_image : ∀ image ∈ (first :: rest).map names.resolve, IsSegment image := by
    intro image held
    obtain ⟨segment, inField, rfl⟩ := List.mem_map.mp held
    exact proper.resolve ⟨full segment inField, undotted segment inField⟩
  refine parse_ok_iff.mpr ⟨names.resolve first, rest.map names.resolve, ?_,
    fun image held => (proper_image image held).1, (ofSegments_renamed names first rest).symm⟩
  rw [PropertyMap.renamedField, cut]
  exact Text.pieces_joined '.' _ _ fun image held => (proper_image image held).2

namespace Node

variable {standard : String}

theorem leafOfRaw_renamed (proper : names.Proper) {field op group : String}
    {json : Json} {leaf : Leaf} (read : leafOfRaw field op json group = .ok leaf) :
    leafOfRaw (names.renamedField field) op json group = .ok (leaf.renamed names) := by
  obtain ⟨operator, value, path, named, made, parsed, accepted, rfl⟩ := leafOfRaw_ok_iff.mp read
  exact leafOfRaw_ok_iff.mpr ⟨operator, value, path.renamed names, named, made,
    FieldPath.parse_renamedField proper parsed, accepted, rfl⟩

mutual

theorem ofRaw_renamed (proper : names.Proper) : (entry : RawFilter) → ∀ {node},
    ofRaw standard entry = .ok node →
      ofRaw standard (entry.renamed names) = .ok (node.changed (Leaf.renamed names))
  | .leaf field op json own, node, read => by
      obtain ⟨leaf, condition, rfl⟩ := ofRaw_leaf_ok_iff.mp read
      exact ofRaw_leaf_ok_iff.mpr ⟨leaf.renamed names, leafOfRaw_renamed proper condition, rfl⟩
  | .composite op entries, node, read => by
      obtain ⟨combinator, first, rest, named, readAll, rfl⟩ :=
        (ofRaw_composite_ok op entries node).mp read
      exact (ofRaw_composite_ok op _ _).mpr
        ⟨combinator, _, _, named, ofRawAll_renamed proper entries readAll, rfl⟩

theorem ofRawAll_renamed (proper : names.Proper) : (entries : List RawFilter) → ∀ {nodes},
    ofRawAll standard entries = .ok nodes →
      ofRawAll standard (RawFilter.renamedAll names entries) =
        .ok (changedAll (Leaf.renamed names) nodes)
  | [], nodes, read => by
      cases read
      rfl
  | entry :: rest, nodes, read => by
      obtain ⟨first, others, readFirst, readRest, rfl⟩ :=
        (ofRawAll_cons_ok entry rest nodes).mp read
      exact (ofRawAll_cons_ok _ _ _).mpr
        ⟨_, _, ofRaw_renamed proper entry readFirst, ofRawAll_renamed proper rest readRest, rfl⟩

end

end Node

end Texts

/-! Renamed conditions are planned and compiled as the given ones are. -/

section Leaves

variable (graph : RelationGraph) (names : PropertyMap)

theorem Leaf.joinSegments_renamed (leaf : Leaf) :
    (leaf.renamed names).joinSegments = leaf.trail names := by
  unfold Leaf.trail Leaf.joinSegments
  cases operator : leaf.operator <;>
    simp [Leaf.renamed, FieldPath.renamed, operator, List.map_dropLast]

theorem JoinPlan.planLeaves_renamed (start : JoinPlan) (leaves : List Leaf) :
    start.planLeaves graph .empty (leaves.map (Leaf.renamed names)) =
      start.planLeaves graph names leaves := by
  induction leaves generalizing start with
  | nil => rfl
  | cons leaf rest ih =>
      have same :
          start.plan graph .empty (leaf.renamed names).joinSegments (leaf.renamed names).group =
          start.plan graph names leaf.joinSegments leaf.group := by
        rw [plan, plan, Leaf.joinSegments_renamed, PropertyMap.map_resolve_empty]
        rfl
      rw [List.map_cons, planLeaves_step, planLeaves_step, same, ih]

variable {names} {plan : JoinPlan} {leaf : Leaf}

theorem JoinPlan.target_renamed {target : Target}
    (found : plan.target names leaf.joinSegments leaf.group = .ok target) :
    plan.target .empty (leaf.renamed names).joinSegments leaf.group = .ok target := by
  rw [target_eq] at found ⊢
  rw [Leaf.joinSegments_renamed, PropertyMap.map_resolve_empty, Leaf.trail]
  split at found
  · exact found
  · cases found

namespace Planned

theorem collection_renamed (names : PropertyMap) (path : FieldPath) :
    collection (path.renamed names) =
      (names.resolve (collection path).1, (collection path).2.map names.resolve) := by
  unfold collection FieldPath.renamed
  rw [List.getLast?_map]
  cases path.relations.getLast? <;> rfl

-- Only the refusal of a value names the path, and an accepted value is not refused.
theorem onColumn_renamed (accepted : leaf.Accepted) (names : PropertyMap) (column : ColumnRef) :
    onColumn (leaf.renamed names) column = onColumn leaf column := by
  obtain ⟨condition, built⟩ := onColumn_of_accepted accepted column
  unfold onColumn at built ⊢
  simp only [Leaf.renamed]
  cases operator : leaf.operator <;> simp only [operator] at built ⊢
  case isIn | like =>
    cases value : leaf.value <;> simp only [value] at built ⊢
    all_goals cases built

theorem buildLeaf_renamed {target : Target} (accepted : leaf.Accepted)
    (found : plan.target names leaf.joinSegments leaf.group = .ok target) (subqueries : Nat) :
    (Planned.mk graph .empty plan).buildLeaf (leaf.renamed names) subqueries =
      (Planned.mk graph names plan).buildLeaf leaf subqueries := by
  have foundRenamed :
      plan.target .empty (leaf.renamed names).joinSegments (leaf.renamed names).group =
      .ok target := JoinPlan.target_renamed found
  have operator : (leaf.renamed names).operator = leaf.operator := rfl
  simp only [buildLeaf, found, foundRenamed, operator]
  by_cases searches : leaf.operator = .contains
  · simp only [searches, if_true, buildContains, Leaf.renamed, collection_renamed,
      PropertyMap.resolve_empty]
    cases graph.relation target.entity (names.resolve (collection leaf.path).1) with
    | error fault => rfl
    | ok declared =>
        cases (collection leaf.path).2 <;> rfl
  · simp only [searches, if_false, column, onColumn_renamed accepted names]
    rfl

end Planned

end Leaves

/-! Renamed keys give the same order. -/

namespace Assembler

variable (assembler : Assembler) (names : PropertyMap)

theorem orderClauses_renamed (root : Entity) (sort : SortRequest) (directions : DirectionRequest) :
    assembler.orderClauses root .empty (sort.renamed names) directions =
      assembler.orderClauses root names sort directions := by
  have resolved (key : SortKey) : (key.renamed names).resolve .empty = key.resolve names := by
    cases key <;> rfl
  have keys : (sort.renamed names).keys = sort.keys.map (·.renamed names) := rfl
  simp only [orderClauses, keys, List.length_map, List.zip_map_left, List.mapM_map,
    Function.comp_def, Prod.map_fst, Prod.map_snd, id_eq, resolved]

variable {assembler} {names}

theorem mirrors_renamed {leaves : List Leaf} (accepted : ∀ leaf ∈ leaves, leaf.Accepted)
    (root : Entity) :
    Mirrors assembler.schema assembler.settings assembler.settings root names .empty
      (Leaf.renamed names) leaves id where
  root_kept _ := rfl
  joins_kept _ := rfl
  start := rfl
  plans := by
    rw [JoinPlan.planLeaves_renamed]
    cases JoinPlan.planLeaves assembler.schema names
      (.new root assembler.settings.joinScope) leaves <;> rfl
  compiles := by
    intro joined planned leaf held subqueries
    obtain ⟨target, found⟩ := (JoinPlan.planLeaves_covers .start planned).target_ok held
    exact Planned.buildLeaf_renamed _ (accepted leaf held) found subqueries

/-- Whatever map a request is read with, its outcome is that of the request in schema names. The
renamed entries are read as the renamed trees, and conditions whose paths are renamed to the same
path share their joins. -/
theorem assemble_renamed (assembler : Assembler) (rootName : String) (given : Option PropertyMap)
    (sort : SortRequest) (directions : DirectionRequest) {standard : String}
    {filters : List RawFilter} {nodes : List Node}
    (proper : (assembler.effectiveNames given).Proper)
    (read : Node.ofRawAll standard filters = .ok nodes) :
    let names := assembler.effectiveNames given
    assembler.assembleNodes rootName nodes given sort directions =
        assembler.assembleNodes rootName (Node.changedAll (Leaf.renamed names) nodes) (some .empty)
          (sort.renamed names) directions ∧
      Node.ofRawAll standard (RawFilter.renamedAll names filters) =
        .ok (Node.changedAll (Leaf.renamed names) nodes) ∧
      ∀ root joined, JoinPlan.planLeaves assembler.schema names
          (.new root assembler.settings.joinScope) (Node.leavesOfAll nodes) = .ok joined →
        ∀ first ∈ Node.leavesOfAll nodes, ∀ second ∈ Node.leavesOfAll nodes,
          assembler.settings.joinScope.key first.group =
            assembler.settings.joinScope.key second.group →
          (first.renamed names).joinSegments = (second.renamed names).joinSegments →
          ∃ target, joined.target names first.joinSegments first.group = .ok target ∧
            joined.target names second.joinSegments second.group = .ok target := by
  intro names
  have accepted := Node.accepted_ofRawAll filters read
  refine ⟨?_, Node.ofRawAll_renamed proper filters read, ?_⟩
  · symm
    exact assembleNodes_changed rootName rfl (mirrors_renamed accepted)
      fun root => assembler.orderClauses_renamed names root sort directions
  · intro root joined planned first heldFirst second heldSecond sameScope samePath
    have covers := JoinPlan.planLeaves_covers .start planned
    obtain ⟨target, reached⟩ := covers.reaches first heldFirst
    have reachedSecond := reached
    rw [sameScope, ← Leaf.joinSegments_renamed, samePath, Leaf.joinSegments_renamed]
      at reachedSecond
    exact ⟨target, covers.target_of_reached reached, covers.target_of_reached reachedSecond⟩

end Assembler

/-- Two names for the toys. What the request calls a label is the name, and what it calls a name is
the number. -/
def Shelter.nicknames : PropertyMap :=
  ⟨.ofList [("playthings", "toys"), ("things", "toys"), ("label", "name"), ("name", "id")]⟩

theorem Assembler.nicknames_share : ∃ nodes plan,
    Node.ofRawAll "__default__" [Shelter.asks "playthings.label" "=" "ball",
      Shelter.asks "things.name" "=" "1"] = .ok nodes ∧
    Shelter.assembler.assembleNodes "Pet" nodes (some Shelter.nicknames)
      (.listed [.requested "label", .declared "name"]) (.every false) = .ok plan ∧
    Shelter.assembler.assembleNodes "Pet" (Node.changedAll (Leaf.renamed Shelter.nicknames) nodes)
      (some .empty) (.listed [.requested "name", .declared "name"]) (.every false) = .ok plan ∧
    plan.joins.length = 1 := by
  obtain ⟨nodes, plan, read, assembled, shared⟩ : ∃ nodes plan,
      Node.ofRawAll "__default__" [Shelter.asks "playthings.label" "=" "ball",
        Shelter.asks "things.name" "=" "1"] = .ok nodes ∧
      Shelter.assembler.assembleNodes "Pet" nodes (some Shelter.nicknames)
        (.listed [.requested "label", .declared "name"]) (.every false) = .ok plan ∧
      plan.joins.length = 1 := ⟨_, _, rfl, rfl, rfl⟩
  have proper : Shelter.nicknames.Proper := by
    unfold PropertyMap.Proper IsSegment
    decide
  obtain ⟨same, _, _⟩ := assemble_renamed Shelter.assembler "Pet" (some Shelter.nicknames)
    (.listed [.requested "label", .declared "name"]) (.every false) proper read
  exact ⟨nodes, plan, read, assembled, same.symm.trans assembled, shared⟩

end FilterQuery
