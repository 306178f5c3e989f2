import FilterQuery.Proofs.Assembled

/-!
The clauses of an order. Main statements: each key of a request makes one clause, with the direction
in its place; and a request that asks for an order alone is assembled when its keys can be resolved.
-/

namespace FilterQuery

section Outcomes

variable {First Second : Type} {change : First → Except Fault Second} {items : List First}

theorem mapM_ok_iff {results : List Second} :
    items.mapM change = .ok results ↔
      List.Forall₂ (fun item result => change item = .ok result) items results := by
  induction items generalizing results with
  | nil => cases results <;> simp [pure, Except.pure]
  | cons item rest ih =>
      simp only [List.mapM_cons, List.forall₂_cons_left_iff, bind_ok_iff, ih]
      constructor
      · rintro ⟨result, changed, others, changedRest, same⟩
        cases same
        exact ⟨result, others, changed, changedRest, rfl⟩
      · rintro ⟨result, others, changed, changedRest, rfl⟩
        exact ⟨result, changed, others, changedRest, rfl⟩

theorem exists_first_cons_iff {passes fails : First → Prop} {item : First} {rest : List First} :
    (∃ before failing after, item :: rest = before ++ failing :: after ∧
        (∀ earlier ∈ before, passes earlier) ∧ fails failing) ↔
      fails item ∨ passes item ∧ ∃ before failing after, rest = before ++ failing :: after ∧
        (∀ earlier ∈ before, passes earlier) ∧ fails failing := by
  constructor
  · rintro ⟨before, failing, after, split, earlier, failed⟩
    cases before with
    | nil =>
        cases split
        exact .inl failed
    | cons first before =>
        cases split
        obtain ⟨passed, others⟩ := List.forall_mem_cons.mp earlier
        exact .inr ⟨passed, before, failing, after, rfl, others, failed⟩
  · rintro (failed | ⟨passed, before, failing, after, rfl, others, failed⟩)
    · exact ⟨[], item, rest, rfl, List.forall_mem_nil _, failed⟩
    · exact ⟨item :: before, failing, after, rfl, List.forall_mem_cons.mpr ⟨passed, others⟩, failed⟩

theorem mapM_error_iff {fault : Fault} :
    items.mapM change = .error fault ↔
      ∃ before item after, items = before ++ item :: after ∧
        (∀ earlier ∈ before, ∃ result, change earlier = .ok result) ∧
          change item = .error fault := by
  induction items with
  | nil => simp [pure, Except.pure]
  | cons item rest ih =>
      rw [exists_first_cons_iff, ← ih, List.mapM_cons]
      cases change item with
      | error found => simp [bind, Except.bind]
      | ok result => cases rest.mapM change <;> simp [bind, Except.bind, pure, Except.pure]

end Outcomes

section Columns

variable {Key Entry Flag Clause : Type} {reads : Entry → Flag → Prop}
  {makes : Key → Flag → Clause → Prop}

theorem exists_forall₂_iff {entries : List Entry} :
    (∃ flags, List.Forall₂ reads entries flags) ↔ ∀ entry ∈ entries, ∃ flag, reads entry flag := by
  induction entries with
  | nil => simp
  | cons entry rest ih =>
      rw [List.forall_mem_cons, ← ih]
      constructor
      · rintro ⟨flags, read⟩
        obtain ⟨flag, others, here, behind, _⟩ := List.forall₂_cons_left_iff.mp read
        exact ⟨⟨flag, here⟩, others, behind⟩
      · rintro ⟨⟨flag, here⟩, others, behind⟩
        exact ⟨flag :: others, .cons here behind⟩

theorem exists_forall₂_zip_iff {keys : List Key} {entries : List Entry} {clauses : List Clause} :
    (∃ flags, List.Forall₂ reads entries flags ∧ flags.length = keys.length ∧
        List.Forall₂ (fun keyed clause => makes keyed.1 keyed.2 clause) (keys.zip flags) clauses) ↔
      entries.length = keys.length ∧
        List.Forall₂ (fun paired clause => ∃ flag, reads paired.2 flag ∧ makes paired.1 flag clause)
          (keys.zip entries) clauses := by
  induction entries generalizing keys clauses with
  | nil => cases keys <;> simp
  | cons entry rest ih =>
      cases keys with
      | nil => simp
      | cons key keys =>
          constructor
          · rintro ⟨flags, read, paired, made⟩
            obtain ⟨flag, others, readFirst, readRest, rfl⟩ := List.forall₂_cons_left_iff.mp read
            obtain ⟨clause, more, madeFirst, madeRest, rfl⟩ := List.forall₂_cons_left_iff.mp made
            obtain ⟨same, behind⟩ := ih.mp ⟨others, readRest, Nat.succ.inj paired, madeRest⟩
            exact ⟨congrArg Nat.succ same, .cons ⟨flag, readFirst, madeFirst⟩ behind⟩
          · rintro ⟨same, made⟩
            obtain ⟨clause, more, ⟨flag, readFirst, madeFirst⟩, madeRest, rfl⟩ :=
              List.forall₂_cons_left_iff.mp made
            obtain ⟨others, readRest, paired, behind⟩ := ih.mpr ⟨Nat.succ.inj same, madeRest⟩
            exact ⟨flag :: others, .cons readFirst readRest, congrArg Nat.succ paired,
              .cons madeFirst behind⟩

end Columns

namespace Assembler

/-- The clause sorts the root in the given direction, by the column that the key names. -/
structure Sorts (assembler : Assembler) (root : Entity) (names : PropertyMap) (key : SortKey)
    (descending : Bool) (clause : OrderClause) : Prop where
  table : clause.column.qualifier = root.table
  column : assembler.schema.column root.name (key.resolve names) = .ok clause.column.column
  direction : clause.order = .ofDescending descending

variable {assembler : Assembler} {root : Entity} {names : PropertyMap} {sort : SortRequest}
  {directions : DirectionRequest} {clauses : List OrderClause}

theorem sorts_iff {key : SortKey} {descending : Bool} {clause : OrderClause} :
    (assembler.schema.column root.name (key.resolve names) >>= fun column =>
        .ok ⟨⟨root.table, column⟩, .ofDescending descending⟩) = .ok clause ↔
      assembler.Sorts root names key descending clause := by
  rw [bind_ok_iff]
  constructor
  · rintro ⟨column, named, same⟩
    cases same
    exact ⟨rfl, named, rfl⟩
  · rintro ⟨table, named, direction⟩
    exact ⟨clause.column.column, named, by rw [← table, ← direction]⟩

theorem orderClauses_ok_iff :
    assembler.orderClauses root names sort directions = .ok clauses ↔
      ∃ flags, directions.flags sort.keys.length = .ok flags ∧ flags.length = sort.keys.length ∧
        List.Forall₂ (fun keyed clause => assembler.Sorts root names keyed.1 keyed.2 clause)
          (sort.keys.zip flags) clauses := by
  rw [orderClauses, bind_ok_iff]
  refine exists_congr fun flags => and_congr_right fun _ => ?_
  split
  · rename_i paired
    rw [mapM_ok_iff, and_iff_right paired]
    simp only [sorts_iff]
  · rename_i unpaired
    simp [unpaired]

theorem orderClauses_every_ok_iff {descending : Bool} :
    (∃ clauses, assembler.orderClauses root names sort (.every descending) = .ok clauses) ↔
      ∀ key ∈ sort.keys, ∃ column, assembler.schema.column root.name (key.resolve names) =
        .ok column := by
  have keyed (keys : List SortKey) :
      keys.zip (List.replicate keys.length descending) = keys.map fun key => (key, descending) := by
    induction keys with
    | nil => rfl
    | cons key rest ih => simp [List.replicate_succ, ih]
  simp only [orderClauses_ok_iff, DirectionRequest.flags, Except.ok.injEq, exists_eq_left',
    List.length_replicate, true_and, exists_forall₂_iff, keyed, List.forall_mem_map]
  refine forall₂_congr fun key _ => ⟨?_, ?_⟩
  · rintro ⟨clause, sorts⟩
    exact ⟨_, sorts.column⟩
  · rintro ⟨column, named⟩
    exact ⟨⟨⟨root.table, column⟩, .ofDescending descending⟩, rfl, named, rfl⟩

theorem assemble_sort_ok_iff {rootName : String} :
    (∃ plan, assembler.assemble rootName { sort := sort } = .ok plan) ↔
      ∃ root, assembler.schema.entity rootName = .ok root ∧ ∀ key ∈ sort.keys,
        ∃ column, assembler.schema.column root.name (key.resolve assembler.settings.names) =
          .ok column := by
  simp only [assemble_ok_iff, Node.ofRawAll, Except.ok.injEq, exists_and_left, exists_eq_left',
    Node.leavesOfAll, List.not_mem_nil, false_implies, implies_true, true_and,
    orderClauses_every_ok_iff]
  rfl

theorem assemble_of_keys_eq (assembler : Assembler) (rootName : String) (request : Request)
    {sort other : SortRequest} (same : sort.keys = other.keys) :
    assembler.assemble rootName { request with sort := sort } =
      assembler.assemble rootName { request with sort := other } := by
  simp only [assemble, assembleNodes, orderClauses, same]

end Assembler

end FilterQuery
