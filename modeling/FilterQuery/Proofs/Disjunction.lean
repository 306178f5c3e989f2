import FilterQuery.Proofs.Faithfulness

/-!
What a disjunction selects. The tables on the paths of all its parts are joined, so a row needs
related rows along every one of these paths, also along those of parts that are not true of it. Main
statement: a disjunction selects nothing that none of its parts selects, and keeps a row of one part
exactly when the paths of all of them can be followed from it so that some part holds; a row that
one part selects alone can be lost.
-/

namespace FilterQuery

variable {Content : Type} [DecidableEq Content]

theorem JoinPlan.Linked.mem_table {graph : RelationGraph} {database : Database Content}
    {root : Entity} {plan : JoinPlan} {assignment : Assignment Content} {row : Row Content}
    (linked : plan.Linked graph database root assignment row) (inTable : row ∈ database root.table)
    {within : String} {path : List String} {target : Target}
    (reached : plan.reached? within path = some target) {entity : Entity}
    (led : graph.lead root path = .ok entity) :
    assignment.rowAt row within path ∈ database entity.table := by
  rcases List.eq_nil_or_concat path with rfl | ⟨shorter, relation, rfl⟩
  · cases led
    exact inTable
  · rw [List.concat_eq_append] at reached led ⊢
    rw [reached?_concat] at reached
    obtain ⟨parent, hop, parentLed, leads, linkedHere⟩ := linked _ _ _ (mem_keys_of_joined reached)
    cases led.symm.trans (RelationGraph.lead_hop parentLed leads)
    rw [Assignment.rowAt_concat]
    exact linkedHere.1

namespace Reading

/-- Linked rows can be found along the paths of all the trees so that some tree holds. -/
def Follows (reading : Reading Content) (nodes : List Node) (row : Row Content) : Prop :=
  ∃ assignment, reading.Fits (Node.leavesOfAll nodes) assignment row ∧
    Node.SomeHolds (reading.Asks assignment row) nodes

/-- Every relation that leaves the paths of some conditions for those of more leads somewhere from
every row. -/
def GoesOn (reading : Reading Content) (leaves more : List Leaf) : Prop :=
  ∀ within path relation, JoinPlan.Occurs reading.names reading.scope more within path relation →
    ¬ JoinPlan.Occurs reading.names reading.scope leaves within path relation →
      ∀ parent hop, reading.graph.lead reading.root path = .ok parent →
        reading.graph.hop parent.name relation = .ok hop →
          ∀ row ∈ reading.database parent.table,
            ∃ link related, hop.Leads reading.database row link related

variable {reading : Reading Content} {leaves more : List Leaf} {row : Row Content}
  {assignment : Assignment Content} {plan : JoinPlan}

/-- The rows of some conditions can be kept while the joins of more are given rows one after the
other. -/
theorem linked_extension (grown : JoinPlan.Grown reading.graph reading.root reading.scope plan)
    (occurs : ∀ within path relation, ⟨within, path ++ [relation]⟩ ∈ plan.keys →
      JoinPlan.Occurs reading.names reading.scope more within path relation)
    (goesOn : reading.GoesOn leaves more) (inTable : row ∈ reading.database reading.root.table)
    (fits : reading.Fits leaves assignment row) :
    ∃ extended, reading.SameOn leaves assignment extended ∧
      plan.Linked reading.graph reading.database reading.root extended row := by
  induction grown with
  | start => exact ⟨assignment, fun _ _ _ _ => ⟨rfl, rfl⟩, fun _ _ _ held => by cases held⟩
  | @step plan within path relation parent hop before reached fresh leads ih =>
      simp only [JoinPlan.keys_add, List.mem_append, List.mem_singleton] at occurs
      obtain ⟨earlier, same, linked⟩ := ih fun _ _ _ held => occurs _ _ _ (Or.inl held)
      obtain ⟨entity, led, named⟩ := before.reached_lead reached
      -- On the paths of the first conditions the rows are given; off them any row that is led to
      -- will do.
      by_cases own : JoinPlan.Occurs reading.names reading.scope leaves within path relation
      · refine ⟨earlier, same, ?_⟩
        intro asked asking last held
        rw [JoinPlan.keys_add, List.mem_append, List.mem_singleton] at held
        rcases held with old | new
        · exact linked _ _ _ old
        · obtain ⟨rfl, rfl, rfl⟩ := JoinKey.concat_inj new
          exact same.fits fits _ _ _ own
      · have inParent := linked.mem_table inTable reached led
        have leadsHere := leads
        rw [named] at leadsHere
        obtain ⟨link, related, linkedHere⟩ :=
          goesOn _ _ _ (occurs _ _ _ (Or.inr rfl)) own entity hop led leadsHere _ inParent
        refine ⟨earlier.assign ⟨within, path ++ [relation]⟩ link related, ?_,
          before.linked_assign reached fresh leads linked linkedHere⟩
        intro asked asking last occursThere
        have different : (⟨asked, asking ++ [last]⟩ : JoinKey) ≠ ⟨within, path ++ [relation]⟩ := by
          intro sameKey
          obtain ⟨rfl, rfl, rfl⟩ := JoinKey.concat_inj sameKey
          exact own occursThere
        rw [Assignment.related_assign_other _ _ _ different,
          Assignment.link_assign_other _ _ _ different]
        exact same asked asking last occursThere

theorem selects_or (first : Node) (rest : List Node) :
    reading.Selects [.composite .or first rest] row ↔
      row ∈ reading.database reading.root.table ∧ reading.Follows (first :: rest) row := by
  simp only [Selects, Follows, Node.leavesOfAll, Node.leaves, List.append_nil, Node.AllHold,
    Node.SomeHolds, Node.Holds, and_true]

theorem leaves_subset {nodes : List Node} {node : Node} (held : node ∈ nodes) :
    node.leaves ⊆ Node.leavesOfAll nodes :=
  fun leaf inNode => (Node.mem_leavesOfAll nodes leaf).mpr ⟨node, held, inNode⟩

theorem selects_singleton (node : Node) :
    reading.Selects [node] row ↔ row ∈ reading.database reading.root.table ∧
      ∃ assignment, reading.Fits node.leaves assignment row ∧
        node.Holds (reading.Asks assignment row) := by
  simp only [Selects, Node.leavesOfAll, List.append_nil, Node.AllHold, and_true]

theorem selects_of_follows {nodes : List Node}
    (inTable : row ∈ reading.database reading.root.table) (follows : reading.Follows nodes row) :
    ∃ node ∈ nodes, reading.Selects [node] row := by
  obtain ⟨assignment, fits, some⟩ := follows
  obtain ⟨node, held, holds⟩ := (Node.someHolds_iff _ nodes).mp some
  exact ⟨node, held, (selects_singleton node).mpr
    ⟨inTable, assignment, fits_of_subset (leaves_subset held) fits, holds⟩⟩

theorem follows_of_selects {nodes : List Node} {node : Node} (held : node ∈ nodes)
    (grown : JoinPlan.Grown reading.graph reading.root reading.scope plan)
    (keys : ∀ within path relation, ⟨within, path ++ [relation]⟩ ∈ plan.keys ↔
      JoinPlan.Occurs reading.names reading.scope (Node.leavesOfAll nodes) within path relation)
    (goesOn : reading.GoesOn node.leaves (Node.leavesOfAll nodes))
    (selects : reading.Selects [node] row) : reading.Follows nodes row := by
  obtain ⟨inTable, assignment, fits, holds⟩ := (selects_singleton node).mp selects
  obtain ⟨extended, same, linked⟩ := linked_extension grown
    (fun within path relation => (keys within path relation).mp) goesOn inTable fits
  refine ⟨extended, fun within path relation occurs => linked _ _ _ ((keys _ _ _).mpr occurs), ?_⟩
  apply (Node.someHolds_iff _ nodes).mpr
  exact ⟨node, held, (Node.holds_congr node fun leaf inNode => same.asks inNode).mp holds⟩

end Reading

namespace Assembler

def SelectedAlone (assembler : Assembler) (rootName : String) (request : Request)
    (filters : List RawFilter) (store : Store Content) (database : Database Content)
    (row : Row Content) : Prop :=
  ∃ filter ∈ filters, ∃ plan,
    assembler.assemble rootName (request.withFilters [filter]) = .ok plan ∧
      row ∈ plan.rows store database

variable {assembler : Assembler} {rootName : String} {request : Request}
  {filters : List RawFilter} {store : Store Content} {database : Database Content}

theorem selectedAlone_iff {nodes : List Node} {root : Entity}
    (alone : ∀ filter ∈ filters, ∃ plan,
      assembler.assemble rootName (request.withFilters [filter]) = .ok plan)
    (read : Node.ofRawAll assembler.settings.defaultGroup filters = .ok nodes)
    (rooted : assembler.schema.entity rootName = .ok root) (plain : ¬ IsGenerated root.table)
    (row : Row Content) :
    assembler.SelectedAlone rootName request filters store database row ↔
      ∃ node ∈ nodes, (assembler.reading request root store database).Selects [node] row := by
  constructor
  · rintro ⟨filter, held, plan, assembled, member⟩
    obtain ⟨node, readOne⟩ := (Node.ofRawAll_ok_iff filters).mp ⟨nodes, read⟩ filter held
    exact ⟨node, (Node.mem_ofRawAll read node).mpr ⟨filter, held, readOne⟩,
      (mem_rows_single assembled readOne rooted plain).mp member⟩
  · rintro ⟨node, held, selects⟩
    obtain ⟨filter, inFilters, readOne⟩ := (Node.mem_ofRawAll read node).mp held
    obtain ⟨plan, assembled⟩ := alone filter inFilters
    exact ⟨filter, inFilters, plan, assembled,
      (mem_rows_single assembled readOne rooted plain).mpr selects⟩

/-- A disjunction of filters selects no row that none of them selects. It keeps a row that one of
them selects exactly when the paths of all filters can be followed from it so that some filter
holds, and it keeps them all when every relation that a filter does not follow itself leads
somewhere. -/
theorem mem_rows_or_iff (assembler : Assembler) (rootName : String) (request : Request)
    (filters : List RawFilter) (nonempty : filters ≠ [])
    (alone : ∀ filter ∈ filters, ∃ plan,
      assembler.assemble rootName (request.withFilters [filter]) = .ok plan)
    (plain : ∀ root, assembler.schema.entity rootName = .ok root → ¬ IsGenerated root.table)
    (store : Store Content) (database : Database Content) :
    ∃ plan nodes root,
      assembler.assemble rootName (request.withFilters [.composite "or" filters]) = .ok plan ∧
      Node.ofRawAll assembler.settings.defaultGroup filters = .ok nodes ∧
      assembler.schema.entity rootName = .ok root ∧
      (∀ row ∈ plan.rows store database,
        assembler.SelectedAlone rootName request filters store database row) ∧
      (∀ row, assembler.SelectedAlone rootName request filters store database row →
        (row ∈ plan.rows store database ↔
          (assembler.reading request root store database).Follows nodes row)) ∧
      ((∀ node ∈ nodes, (assembler.reading request root store database).GoesOn node.leaves
          (Node.leavesOfAll nodes)) →
        ∀ row, row ∈ plan.rows store database ↔
          assembler.SelectedAlone rootName request filters store database row) := by
  have known : Combinator.ofSymbol? "or" = some .or := rfl
  obtain ⟨plan, assembled⟩ := (assemble_composite_ok_iff known nonempty).mpr
    ((assemble_filters_ok_iff nonempty).mpr alone)
  obtain ⟨_, root, joined, read, rooted, made⟩ := assembled_of_assemble assembled
  obtain ⟨_, readOne, rfl⟩ := (Node.ofRawAll_singleton_ok _ _).mp read
  obtain ⟨_, first, rest, ⟨⟩, readAll, rfl⟩ := (Node.ofRaw_composite_ok _ _ _).mp readOne
  have single (row : Row Content) :
      assembler.SelectedAlone rootName request filters store database row ↔
        ∃ node ∈ first :: rest,
          (assembler.reading request root store database).Selects [node] row :=
    selectedAlone_iff alone readAll rooted (plain root rooted) row
  have whole (row : Row Content) : row ∈ plan.rows store database ↔ row ∈ database root.table ∧
      (assembler.reading request root store database).Follows (first :: rest) row :=
    (made.mem_rows_iff (plain root rooted) store database row).trans (Reading.selects_or first rest)
  have selected : ∀ row ∈ plan.rows store database,
      assembler.SelectedAlone rootName request filters store database row := by
    intro row member
    obtain ⟨inTable, follows⟩ := (whole row).mp member
    exact (single row).mpr (Reading.selects_of_follows inTable follows)
  have inTable (row : Row Content)
      (selected : assembler.SelectedAlone rootName request filters store database row) :
      row ∈ database root.table := by
    obtain ⟨_, _, selects⟩ := (single row).mp selected
    exact selects.1
  refine ⟨plan, first :: rest, root, assembled, readAll, rooted, selected, ?_, ?_⟩
  · intro row selectedAlone
    rw [whole]
    exact and_iff_right (inTable row selectedAlone)
  · intro goesOn row
    refine ⟨selected row, fun selectedAlone => (whole row).mpr ⟨inTable row selectedAlone, ?_⟩⟩
    obtain ⟨node, held, selects⟩ := (single row).mp selectedAlone
    have keys := made.covers.mem_keys_iff
    rw [Node.leavesOfAll, Node.leavesOfAll, List.append_nil] at keys
    exact Reading.follows_of_selects held made.covers.grown keys (goesOn node held) selects

theorem jinx_not_followed : ∃ nodes root,
    Node.ofRawAll "__default__"
        [Shelter.asks "name" "=" "Jinx", Shelter.asks "toys.name" "=" "ball"] = .ok nodes ∧
      Shelter.schema.entity "Pet" = .ok root ∧
        ¬ (Shelter.assembler.reading {} root Shelter.texts Shelter.database).Follows nodes
          Shelter.jinx := by
  let filters : List RawFilter :=
    [Shelter.asks "name" "=" "Jinx", Shelter.asks "toys.name" "=" "ball"]
  have alone : ∀ filter ∈ filters, ∃ plan, Shelter.assembler.assemble "Pet"
      (({} : Request).withFilters [filter]) = .ok plan := by
    simp only [filters, List.forall_mem_cons]
    exact ⟨⟨_, rfl⟩, ⟨_, rfl⟩, by simp⟩
  have selected : Shelter.assembler.SelectedAlone "Pet" {} filters Shelter.texts Shelter.database
      Shelter.jinx :=
    ⟨Shelter.asks "name" "=" "Jinx", List.mem_cons_self, _, rfl, by decide +kernel⟩
  obtain ⟨lost, disjunction, absent⟩ : ∃ plan, Shelter.assembler.assemble "Pet"
      (({} : Request).withFilters [.composite "or" filters]) = .ok plan ∧
        Shelter.jinx ∉ plan.rows Shelter.texts Shelter.database := ⟨_, rfl, by decide +kernel⟩
  obtain ⟨plan, nodes, root, assembled, read, rooted, _, kept, _⟩ :=
    mem_rows_or_iff Shelter.assembler "Pet" {} filters (by simp [filters]) alone Shelter.plain
      Shelter.texts Shelter.database
  cases assembled.symm.trans disjunction
  exact ⟨nodes, root, read, rooted, fun follows => absent ((kept _ selected).mpr follows)⟩

theorem jinx_lost : ∃ plan single other,
    Shelter.assembler.assemble "Pet" (({} : Request).withFilters [.composite "or"
      [Shelter.asks "name" "=" "Jinx", Shelter.asks "toys.name" "=" "ball"]]) = .ok plan ∧
    Shelter.assembler.assemble "Pet" (({} : Request).withFilters [Shelter.asks "name" "=" "Jinx"]) =
      .ok single ∧
    Shelter.assembler.assemble "Pet"
      (({} : Request).withFilters [Shelter.asks "toys.name" "=" "ball"]) = .ok other ∧
    Shelter.jinx ∈ single.rows Shelter.texts Shelter.database ∧
      Shelter.jinx ∉ plan.rows Shelter.texts Shelter.database :=
  ⟨_, _, _, rfl, rfl, rfl, by decide +kernel, by decide +kernel⟩

end Assembler

end FilterQuery
