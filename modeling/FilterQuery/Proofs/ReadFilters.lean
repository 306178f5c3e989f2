import FilterQuery.Filter
import Mathlib.Data.List.Forall2

/-!
Filter trees as they are read from raw entries. Main statements: a list of entries can be read
exactly when each entry can be, and gives a tree for each; the conditions of a tree stand in the
groups that its entry names, or in the standard one, and compare with values that their operators
take.
-/

namespace FilterQuery

namespace RawFilter

mutual

def groups (standard : String) : RawFilter → List String
  | .leaf _ _ _ group => [group.getD standard]
  | .composite _ children => groupsOfAll standard children

def groupsOfAll (standard : String) : List RawFilter → List String
  | [] => []
  | entry :: rest => entry.groups standard ++ groupsOfAll standard rest

end

end RawFilter

theorem Value.ofItems_cons (json : Json) (rest : List Json) :
    ofItems (json :: rest) = ofJson json >>= fun first => (ofItems rest).map (first :: ·) := by
  rw [ofItems]
  cases ofJson json <;> rfl

theorem Value.ofItems_ok_iff {items : List Json} {values : List Value} :
    ofItems items = .ok values ↔
      List.Forall₂ (fun json value => ofJson json = .ok value) items values := by
  induction items generalizing values with
  | nil => cases values <;> simp [ofItems]
  | cons json rest ih =>
      rw [ofItems_cons, List.forall₂_cons_left_iff]
      cases decoded : ofJson json with
      | error number => simp [bind, Except.bind]
      | ok first =>
          simp only [bind, Except.bind, ← ih, Except.ok.injEq, exists_and_left, exists_eq_left',
            @eq_comm _ values]
          cases ofItems rest <;> simp [Except.map]

def Leaf.Accepted (leaf : Leaf) : Prop :=
  leaf.operator.accepts leaf.value = true

namespace Node

variable {standard : String}

theorem ofRawAll_cons_ok (entry : RawFilter) (rest : List RawFilter) (nodes : List Node) :
    ofRawAll standard (entry :: rest) = .ok nodes ↔
      ∃ first others, ofRaw standard entry = .ok first ∧ ofRawAll standard rest = .ok others ∧
        nodes = first :: others := by
  simp only [ofRawAll, bind, Except.bind]
  cases ofRaw standard entry with
  | error fault => simp
  | ok first => cases ofRawAll standard rest <;> simp [eq_comm]

theorem ofRaw_composite_ok (op : String) (entries : List RawFilter) (node : Node) :
    ofRaw standard (.composite op entries) = .ok node ↔
      ∃ combinator first rest, Combinator.ofSymbol? op = some combinator ∧
        ofRawAll standard entries = .ok (first :: rest) ∧
          node = .composite combinator first rest := by
  cases entries with
  | nil => simp [ofRaw, ofRawAll]
  | cons entry others =>
      simp only [ofRaw, bind, Except.bind, ofRawAll_cons_ok, Combinator.parse]
      cases Combinator.ofSymbol? op with
      | none => simp
      | some combinator =>
          cases ofRaw standard entry with
          | error fault => simp
          | ok first =>
              cases ofRawAll standard others with
              | error fault => simp
              | ok rest =>
                  constructor
                  · rintro ⟨⟩
                    exact ⟨combinator, first, rest, rfl, ⟨first, rest, rfl, rfl, rfl⟩, rfl⟩
                  · rintro ⟨_, _, _, ⟨⟩, ⟨_, _, ⟨⟩, ⟨⟩, ⟨⟩⟩, rfl⟩
                    rfl

theorem ofRaw_composite_error {op : String} {combinator : Combinator} {entries : List RawFilter}
    {fault : Fault} (known : Combinator.ofSymbol? op = some combinator)
    (failed : ofRawAll standard entries = .error fault) :
    ofRaw standard (.composite op entries) = .error fault := by
  cases entries with
  | nil => cases failed
  | cons first rest =>
      rw [ofRawAll] at failed
      rw [ofRaw, Combinator.parse, known]
      cases read : ofRaw standard first with
      | error other =>
          rw [read] at failed
          cases failed
          rfl
      | ok node =>
          rw [read] at failed
          cases readRest : ofRawAll standard rest with
          | error other =>
              rw [readRest] at failed
              cases failed
              rfl
          | ok nodes =>
              rw [readRest] at failed
              cases failed

theorem ofRawAll_singleton_ok (entry : RawFilter) (nodes : List Node) :
    ofRawAll standard [entry] = .ok nodes ↔
      ∃ node, ofRaw standard entry = .ok node ∧ nodes = [node] := by
  rw [ofRawAll_cons_ok]
  simp [ofRawAll]

theorem ofRawAll_ok_iff (entries : List RawFilter) :
    (∃ nodes, ofRawAll standard entries = .ok nodes) ↔
      ∀ entry ∈ entries, ∃ node, ofRaw standard entry = .ok node := by
  induction entries with
  | nil => simp [ofRawAll]
  | cons entry rest ih =>
      rw [List.forall_mem_cons, ← ih]
      simp only [ofRawAll_cons_ok]
      constructor
      · rintro ⟨_, first, others, read, readRest, _⟩
        exact ⟨⟨first, read⟩, others, readRest⟩
      · rintro ⟨⟨first, read⟩, others, readRest⟩
        exact ⟨_, first, others, read, readRest, rfl⟩

theorem mem_ofRawAll {entries : List RawFilter} {nodes : List Node}
    (read : ofRawAll standard entries = .ok nodes) (node : Node) :
    node ∈ nodes ↔ ∃ entry ∈ entries, ofRaw standard entry = .ok node := by
  induction entries generalizing nodes with
  | nil =>
      cases read
      simp
  | cons entry rest ih =>
      obtain ⟨first, others, readFirst, readRest, rfl⟩ := (ofRawAll_cons_ok _ _ _).mp read
      simp only [List.mem_cons, ih readRest, exists_eq_or_imp, readFirst, Except.ok.injEq]
      rw [@eq_comm _ node first]

def groups (node : Node) : List String :=
  node.leaves.map (·.group)

theorem leafOfRaw_ok_iff {field op group : String} {json : Json} {leaf : Leaf} :
    leafOfRaw field op json group = .ok leaf ↔
      ∃ operator value path, Operator.ofSymbol? op = some operator ∧ Value.ofJson json = .ok value ∧
        FieldPath.parse field = .ok path ∧ operator.accepts value.coerce = true ∧
          leaf = ⟨path, operator, value.coerce, group⟩ := by
  unfold leafOfRaw
  cases Operator.ofSymbol? op with
  | none => simp
  | some operator =>
      cases Value.ofJson json with
      | error number => simp
      | ok value =>
          simp only [Leaf.of, bind_ok_iff]
          constructor
          · rintro ⟨path, parsed, made⟩
            split at made
            · rename_i accepted
              cases made
              exact ⟨operator, value, path, rfl, rfl, parsed, accepted, rfl⟩
            · cases made
          · rintro ⟨_, _, path, ⟨⟩, ⟨⟩, parsed, accepted, rfl⟩
            exact ⟨path, parsed, if_pos accepted⟩

theorem leafOfRaw_eq_map {field op group : String} {json : Json} {operator : Operator}
    {value : Value} (known : Operator.ofSymbol? op = some operator)
    (decoded : Value.ofJson json = .ok value) (accepted : operator.accepts value.coerce = true) :
    leafOfRaw field op json group =
      (FieldPath.parse field).map fun path => ⟨path, operator, value.coerce, group⟩ := by
  rw [leafOfRaw, known, decoded]
  change Leaf.of field operator value group = _
  rw [Leaf.of]
  cases FieldPath.parse field with
  | error fault => rfl
  | ok path => exact if_pos accepted

theorem leafOfRaw_of_refused (field : String) {op : String} (group : String) {json : Json}
    {operator : Operator} {number : Int} (known : Operator.ofSymbol? op = some operator)
    (refused : Value.ofJson json = .error number) :
    leafOfRaw field op json group =
      .error (.invalidValue field op (String.ofList (Text.integer number))
        "integers within the signed 64-bit range") := by
  rw [leafOfRaw, known, refused]

theorem leafOfRaw_group {field op group : String} {value : Json} {leaf : Leaf}
    (read : leafOfRaw field op value group = .ok leaf) : leaf.group = group := by
  obtain ⟨_, _, _, _, _, _, _, rfl⟩ := leafOfRaw_ok_iff.mp read
  rfl

theorem ofRaw_leaf_ok_iff {field op : String} {value : Json} {own : Option String} {node : Node} :
    ofRaw standard (.leaf field op value own) = .ok node ↔
      ∃ leaf, leafOfRaw field op value (own.getD standard) = .ok leaf ∧ node = .leaf leaf := by
  rw [ofRaw, map_ok_iff]
  simp only [@eq_comm _ node]

mutual

theorem groups_ofRaw : (entry : RawFilter) → ∀ {node}, ofRaw standard entry = .ok node →
    node.groups = entry.groups standard
  | .leaf field op value own, node, read => by
      obtain ⟨leaf, condition, rfl⟩ := ofRaw_leaf_ok_iff.mp read
      simp [groups, leaves, RawFilter.groups, leafOfRaw_group condition]
  | .composite op entries, node, read => by
      obtain ⟨combinator, first, rest, _, readAll, rfl⟩ :=
        (ofRaw_composite_ok op entries node).mp read
      exact groupsOfAll_ofRawAll entries readAll

theorem groupsOfAll_ofRawAll : (entries : List RawFilter) → ∀ {nodes},
    ofRawAll standard entries = .ok nodes →
      (leavesOfAll nodes).map (·.group) = RawFilter.groupsOfAll standard entries
  | [], nodes, read => by
      cases read
      rfl
  | entry :: rest, nodes, read => by
      obtain ⟨first, others, readFirst, readRest, rfl⟩ := (ofRawAll_cons_ok _ _ _).mp read
      rw [leavesOfAll, List.map_append, groupsOfAll_ofRawAll rest readRest, RawFilter.groupsOfAll,
        ← groups_ofRaw entry readFirst, groups]

end

mutual

theorem accepted_ofRaw : (entry : RawFilter) → ∀ {node}, ofRaw standard entry = .ok node →
    ∀ leaf ∈ node.leaves, leaf.Accepted
  | .leaf field op value own, node, read => by
      obtain ⟨leaf, condition, rfl⟩ := ofRaw_leaf_ok_iff.mp read
      obtain ⟨_, _, _, _, _, _, accepted, rfl⟩ := leafOfRaw_ok_iff.mp condition
      exact List.forall_mem_singleton.mpr accepted
  | .composite op entries, node, read => by
      obtain ⟨combinator, first, rest, _, readAll, rfl⟩ :=
        (ofRaw_composite_ok op entries node).mp read
      exact accepted_ofRawAll entries readAll

theorem accepted_ofRawAll : (entries : List RawFilter) → ∀ {nodes},
    ofRawAll standard entries = .ok nodes → ∀ leaf ∈ leavesOfAll nodes, leaf.Accepted
  | [], nodes, read => by
      cases read
      exact List.forall_mem_nil _
  | entry :: rest, nodes, read => by
      obtain ⟨first, others, readFirst, readRest, rfl⟩ := (ofRawAll_cons_ok _ _ _).mp read
      exact List.forall_mem_append.mpr
        ⟨accepted_ofRaw entry readFirst, accepted_ofRawAll rest readRest⟩

end

theorem groups_ofRawAll {entries : List RawFilter} {nodes : List Node}
    (read : ofRawAll standard entries = .ok nodes) :
    nodes.map groups = entries.map (·.groups standard) := by
  induction entries generalizing nodes with
  | nil =>
      cases read
      rfl
  | cons entry rest ih =>
      obtain ⟨first, others, readFirst, readRest, rfl⟩ := (ofRawAll_cons_ok _ _ _).mp read
      rw [List.map_cons, List.map_cons, ih readRest, groups_ofRaw entry readFirst]

end Node

end FilterQuery
