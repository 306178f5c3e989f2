import FilterQuery.Proofs.Faithfulness
import FilterQuery.Proofs.ReadFilters

/-!
Condition groups speak of rows of their own. Assignments for trees that share no scope can be put
together, because every row is linked within one scope only. Main statement: filters that share no
group select the rows that each of them selects alone.
-/

namespace FilterQuery

variable {Content : Type}

def Assignment.merge (scopes : List String) (own other : Assignment Content) :
    Assignment Content where
  related := fun key => if key.scope ∈ scopes then own.related key else other.related key
  link := fun key => if key.scope ∈ scopes then own.link key else other.link key

namespace Reading

theorem sameOn_merge_own {reading : Reading Content} {leaves : List Leaf} {scopes : List String}
    (held : ∀ leaf ∈ leaves, reading.scope.key leaf.group ∈ scopes)
    (own other : Assignment Content) :
    reading.SameOn leaves own (own.merge scopes other) := by
  rintro _ path relation ⟨leaf, inLeaves, rfl, _⟩
  exact ⟨(if_pos (held leaf inLeaves)).symm, (if_pos (held leaf inLeaves)).symm⟩

theorem sameOn_merge_other {reading : Reading Content} {leaves : List Leaf} {scopes : List String}
    (absent : ∀ leaf ∈ leaves, reading.scope.key leaf.group ∉ scopes)
    (own other : Assignment Content) : reading.SameOn leaves other (own.merge scopes other) := by
  rintro _ path relation ⟨leaf, inLeaves, rfl, _⟩
  exact ⟨(if_neg (absent leaf inLeaves)).symm, (if_neg (absent leaf inLeaves)).symm⟩

variable [DecidableEq Content] {reading : Reading Content} {row : Row Content}

theorem fits_append (leaves others : List Leaf) (assignment : Assignment Content) :
    reading.Fits (leaves ++ others) assignment row ↔
      reading.Fits leaves assignment row ∧ reading.Fits others assignment row := by
  simp only [Fits, JoinPlan.Occurs, List.mem_append, or_and_right, exists_or, or_imp, forall_and]

theorem selects_append {nodes others : List Node}
    (apart : ∀ leaf ∈ Node.leavesOfAll nodes, ∀ other ∈ Node.leavesOfAll others,
      reading.scope.key leaf.group ≠ reading.scope.key other.group) :
    reading.Selects (nodes ++ others) row ↔
      reading.Selects nodes row ∧ reading.Selects others row := by
  simp only [Selects, Node.leavesOfAll_append, fits_append, Node.allHold_append]
  constructor
  · rintro ⟨inTable, assignment, ⟨fitsNodes, fitsOthers⟩, holdNodes, holdOthers⟩
    exact ⟨⟨inTable, assignment, fitsNodes, holdNodes⟩, inTable, assignment, fitsOthers, holdOthers⟩
  · rintro ⟨⟨inTable, own, fitsNodes, holdNodes⟩, _, other, fitsOthers, holdOthers⟩
    let scopes := (Node.leavesOfAll nodes).map fun leaf => reading.scope.key leaf.group
    have sameOwn : reading.SameOn (Node.leavesOfAll nodes) own (own.merge scopes other) :=
      sameOn_merge_own (fun leaf held => List.mem_map.mpr ⟨leaf, held, rfl⟩) own other
    have sameOther : reading.SameOn (Node.leavesOfAll others) other (own.merge scopes other) := by
      apply sameOn_merge_other
      intro leaf held shared
      obtain ⟨sharing, heldFirst, same⟩ := List.mem_map.mp shared
      exact apart sharing heldFirst leaf held same
    refine ⟨inTable, own.merge scopes other, ⟨sameOwn.fits fitsNodes, sameOther.fits fitsOthers⟩,
      ?_, ?_⟩
    · exact (Node.allHold_congr nodes fun leaf held => sameOwn.asks held).mp holdNodes
    · exact (Node.allHold_congr others fun leaf held => sameOther.asks held).mp holdOthers

theorem selects_nil : reading.Selects [] row ↔ row ∈ reading.database reading.root.table := by
  constructor
  · exact fun selects => selects.1
  · intro inTable
    refine ⟨inTable, ⟨fun _ => row, fun _ => row⟩, ?_, trivial⟩
    rintro _ _ _ ⟨_, held, _⟩
    cases held

theorem selects_iff_each (separate : reading.scope = .conditionGroup) {nodes : List Node}
    (apart : (nodes.map Node.groups).Pairwise List.Disjoint) :
    reading.Selects nodes row ↔
      row ∈ reading.database reading.root.table ∧ ∀ node ∈ nodes, reading.Selects [node] row := by
  induction nodes with
  | nil => simp [selects_nil]
  | cons node rest ih =>
      rw [List.map_cons, List.pairwise_cons] at apart
      have apartHead : ∀ leaf ∈ Node.leavesOfAll [node], ∀ other ∈ Node.leavesOfAll rest,
          reading.scope.key leaf.group ≠ reading.scope.key other.group := by
        intro leaf held other heldOther same
        rw [separate] at same
        simp only [Node.leavesOfAll, List.append_nil] at held
        obtain ⟨sharing, inRest, inSharing⟩ := (Node.mem_leavesOfAll rest other).mp heldOther
        have disjoint := apart.1 _ (List.mem_map_of_mem inRest)
        exact disjoint (List.mem_map_of_mem held) (List.mem_map.mpr ⟨other, inSharing, same.symm⟩)
      rw [← List.singleton_append, selects_append apartHead, ih apart.2, List.singleton_append,
        List.forall_mem_cons]
      constructor
      · rintro ⟨selects, inTable, each⟩
        exact ⟨inTable, selects, each⟩
      · rintro ⟨inTable, selects, each⟩
        exact ⟨selects, inTable, each⟩

theorem selects_and (node : Node) (rest : List Node) :
    reading.Selects [.composite .and node rest] row ↔ reading.Selects (node :: rest) row := by
  simp only [Selects, Node.leavesOfAll, Node.leaves, List.append_nil, Node.AllHold, Node.Holds,
    and_true]

end Reading

namespace Assembler

variable [DecidableEq Content]

theorem selected_by_each_iff {assembler : Assembler} {rootName : String} {request : Request}
    {filters : List RawFilter} {nodes : List Node} {root : Entity} {store : Store Content}
    {database : Database Content}
    (alone : ∀ filter ∈ filters, ∃ plan,
      assembler.assemble rootName (request.withFilters [filter]) = .ok plan)
    (read : Node.ofRawAll assembler.settings.defaultGroup filters = .ok nodes)
    (rooted : assembler.schema.entity rootName = .ok root) (plain : ¬ IsGenerated root.table)
    (row : Row Content) :
    (∀ filter ∈ filters, ∀ plan,
      assembler.assemble rootName (request.withFilters [filter]) = .ok plan →
        row ∈ plan.rows store database) ↔
      ∀ node ∈ nodes, (assembler.reading request root store database).Selects [node] row := by
  constructor
  · intro each node held
    obtain ⟨filter, inFilters, readOne⟩ := (Node.mem_ofRawAll read node).mp held
    obtain ⟨plan, assembled⟩ := alone filter inFilters
    rw [← mem_rows_single assembled readOne rooted plain]
    exact each filter inFilters plan assembled
  · intro each filter held plan assembled
    obtain ⟨node, readOne⟩ := (Node.ofRawAll_ok_iff filters).mp ⟨nodes, read⟩ filter held
    rw [mem_rows_single assembled readOne rooted plain]
    exact each node ((Node.mem_ofRawAll read node).mpr ⟨filter, held, readOne⟩)

/-- Filters that share no group can be assembled together when each of them can be alone, as a list
and as one conjunction, and then select the rows that all of them select. -/
theorem mem_rows_iff_each (assembler : Assembler) (rootName : String) (request : Request)
    (filters : List RawFilter) (separate : assembler.settings.joinScope = .conditionGroup)
    (apart : (filters.map (·.groups assembler.settings.defaultGroup)).Pairwise List.Disjoint)
    (alone : ∀ filter ∈ filters, ∃ plan,
      assembler.assemble rootName (request.withFilters [filter]) = .ok plan)
    (plain : ∀ root, assembler.schema.entity rootName = .ok root → ¬ IsGenerated root.table)
    (store : Store Content) (database : Database Content) :
    (filters ≠ [] →
      (∃ plan, assembler.assemble rootName (request.withFilters filters) = .ok plan) ∧
        ∃ plan, assembler.assemble rootName
          (request.withFilters [.composite "and" filters]) = .ok plan) ∧
    ∀ whole, assembler.assemble rootName (request.withFilters filters) = .ok whole ∨
        assembler.assemble rootName (request.withFilters [.composite "and" filters]) = .ok whole →
      ∀ row, row ∈ whole.rows store database ↔ row ∈ database whole.table ∧
        ∀ filter ∈ filters, ∀ plan,
          assembler.assemble rootName (request.withFilters [filter]) = .ok plan →
            row ∈ plan.rows store database := by
  constructor
  · intro nonempty
    have listed := (assemble_filters_ok_iff nonempty).mpr alone
    exact ⟨listed, (assemble_composite_ok_iff rfl nonempty).mpr listed⟩
  · intro whole assembled row
    -- Either way the tree asks for the trees of the filters beside each other.
    obtain ⟨nodes, root, read, rooted, table, selected⟩ : ∃ nodes root,
        Node.ofRawAll assembler.settings.defaultGroup filters = .ok nodes ∧
        assembler.schema.entity rootName = .ok root ∧ whole.table = root.table ∧
        (row ∈ whole.rows store database ↔
          (assembler.reading request root store database).Selects nodes row) := by
      rcases assembled with assembled | assembled
      · obtain ⟨nodes, root, joined, read, rooted, made⟩ := assembled_of_assemble assembled
        exact ⟨nodes, root, read, rooted, made.table,
          made.mem_rows_iff (plain root rooted) store database row⟩
      · obtain ⟨_, root, joined, read, rooted, made⟩ := assembled_of_assemble assembled
        obtain ⟨_, readOne, rfl⟩ := (Node.ofRawAll_singleton_ok _ _).mp read
        obtain ⟨_, first, rest, ⟨⟩, readAll, rfl⟩ := (Node.ofRaw_composite_ok _ _ _).mp readOne
        refine ⟨first :: rest, root, readAll, rooted, made.table, ?_⟩
        exact (made.mem_rows_iff (plain root rooted) store database row).trans
          (Reading.selects_and first rest)
    rw [selected, table, Reading.selects_iff_each separate]
    · exact and_congr_right fun _ =>
        (selected_by_each_iff alone read rooted (plain root rooted) row).symm
    · rw [Node.groups_ofRawAll read]
      exact apart

/-- The ball and the rope are different toys, so they are asked for in different groups. -/
theorem kaya_has_each : ∃ plan, Shelter.assembler.assemble "Pet" (({} : Request).withFilters
      [.leaf "toys.name" "=" (.text "ball") (some "one"),
        .leaf "toys.name" "=" (.text "rope") (some "other")]) = .ok plan ∧
    Shelter.kaya ∈ plan.rows Shelter.texts Shelter.database := by
  let filters : List RawFilter := [.leaf "toys.name" "=" (.text "ball") (some "one"),
    .leaf "toys.name" "=" (.text "rope") (some "other")]
  have alone : ∀ filter ∈ filters, ∃ plan, Shelter.assembler.assemble "Pet"
      (({} : Request).withFilters [filter]) = .ok plan ∧
        Shelter.kaya ∈ plan.rows Shelter.texts Shelter.database := by
    simp only [filters, List.forall_mem_cons]
    exact ⟨⟨_, rfl, by decide +kernel⟩, ⟨_, rfl, by decide +kernel⟩, by simp⟩
  have apart : (filters.map (·.groups "__default__")).Pairwise List.Disjoint := by
    simp [filters, RawFilter.groups]
  obtain ⟨together, each⟩ := mem_rows_iff_each Shelter.assembler "Pet" {} filters rfl apart
    (fun filter held => (alone filter held).imp fun _ single => single.1) Shelter.plain
    Shelter.texts Shelter.database
  obtain ⟨plan, assembled⟩ := (together (by simp [filters])).1
  refine ⟨plan, assembled, (each plan (Or.inl assembled) Shelter.kaya).mpr ⟨?_, ?_⟩⟩
  · obtain ⟨_, root, _, _, rooted, made⟩ := assembled_of_assemble assembled
    rw [made.table, Shelter.table_of_pet rooted]
    exact List.mem_cons_self
  · intro filter held single assembledAlone
    obtain ⟨same, sameAssembled, member⟩ := alone filter held
    cases assembledAlone.symm.trans sameAssembled
    exact member

end Assembler

end FilterQuery
