import FilterQuery.Proofs.IntegerRange

/-!
What a request is refused for. Every entry is checked by itself, a composite before the entries
inside it, and the first check that fails decides. Main statement: raw entries become typed trees of
the same form exactly when nothing is wrong with any of them, and else they are refused for the
first that something is wrong with.
-/

namespace FilterQuery

namespace RawFilter

mutual

def preorder : RawFilter → List RawFilter
  | .leaf field op json group => [.leaf field op json group]
  | .composite op children => .composite op children :: preorderOfAll children

def preorderOfAll : List RawFilter → List RawFilter
  | [] => []
  | entry :: rest => entry.preorder ++ preorderOfAll rest

end

/-- Nothing is wrong with the entry, whatever the entries inside it are. -/
def Sound : RawFilter → Prop
  | .leaf field op json _ =>
      ∃ operator : Operator, operator.symbol = op ∧
        (∀ number ∈ json.openIntegers, Value.isInRange number = true) ∧
        "" ∉ Text.pieces '.' field ∧ operator.accepts json.mirrored.coerce = true
  | .composite op children => children ≠ [] ∧ (op = "and" ∨ op = "or")

/-- What is wrong with an entry, whatever the entries inside it are. What a check finds counts when
the checks before it find nothing. -/
inductive Offends : RawFilter → Fault → Prop where
  | empty {op : String} : Offends (.composite op []) (.emptyComposite op)
  | combinator {op : String} {children : List RawFilter} (given : children ≠ [])
      (unknown : ¬ (op = "and" ∨ op = "or")) :
      Offends (.composite op children) (.invalidOperator op)
  | operator {field op : String} {json : Json} {group : Option String}
      (unknown : ∀ operator : Operator, operator.symbol ≠ op) :
      Offends (.leaf field op json group) (.unknownOperator field op)
  | integer {field op : String} {json : Json} {group : Option String} {operator : Operator}
      {number : Int} (known : operator.symbol = op)
      (out : Value.firstOut json.openIntegers = some number) :
      Offends (.leaf field op json group)
        (.invalidValue field op (String.ofList (Text.integer number))
          "integers within the signed 64-bit range")
  | path {field op : String} {json : Json} {group : Option String} {operator : Operator}
      (known : operator.symbol = op)
      (inRange : ∀ number ∈ json.openIntegers, Value.isInRange number = true)
      (blank : "" ∈ Text.pieces '.' field) :
      Offends (.leaf field op json group) (.malformedPath field)
  | domain {field op : String} {json : Json} {group : Option String} {operator : Operator}
      (known : operator.symbol = op)
      (inRange : ∀ number ∈ json.openIntegers, Value.isInRange number = true)
      (full : "" ∉ Text.pieces '.' field)
      (outside : operator.accepts json.mirrored.coerce = false) :
      Offends (.leaf field op json group)
        (.invalidValue field op json.mirrored.coerce.shown operator.expectation)

/-- The tree has the form of the entry: its conditions have the paths, the operators and the coerced
values that are given there, and the groups where any are given. -/
inductive TypedAs (standard : String) : RawFilter → Node → Prop where
  | leaf {field op : String} {json : Json} {group : Option String} {path : FieldPath}
      {operator : Operator} (segments : path.segments = Text.pieces '.' field)
      (known : operator.symbol = op) :
      TypedAs standard (.leaf field op json group)
        (.leaf ⟨path, operator, json.mirrored.coerce, group.getD standard⟩)
  | composite {op : String} {children : List RawFilter} {combinator : Combinator} {first : Node}
      {rest : List Node} (known : combinator.symbol = op)
      (each : List.Forall₂ (TypedAs standard) children (first :: rest)) :
      TypedAs standard (.composite op children) (.composite combinator first rest)

/-- Something is wrong with one of some entries, and nothing with those before it. -/
inductive FirstOffends : List RawFilter → Fault → Prop where
  | here {entry : RawFilter} {rest : List RawFilter} {fault : Fault}
      (offends : entry.Offends fault) :
      FirstOffends (entry :: rest) fault
  | later {entry : RawFilter} {rest : List RawFilter} {fault : Fault} (sound : entry.Sound)
      (behind : FirstOffends rest fault) : FirstOffends (entry :: rest) fault

/-! The checks of one entry. -/

theorem sound_composite {op : String} {children : List RawFilter}
    (sound : Sound (.composite op children)) :
    children ≠ [] ∧ ∃ combinator, Combinator.ofSymbol? op = some combinator := by
  obtain ⟨given, rfl | rfl⟩ := sound
  · exact ⟨given, .and, rfl⟩
  · exact ⟨given, .or, rfl⟩

theorem sound_or_offends (entry : RawFilter) : entry.Sound ∨ ∃ fault, entry.Offends fault := by
  cases entry with
  | leaf field op json group =>
      by_cases known : ∃ operator : Operator, operator.symbol = op
      case neg => exact Or.inr ⟨_, .operator (not_exists.mp known)⟩
      obtain ⟨operator, named⟩ := known
      cases out : Value.firstOut json.openIntegers with
      | some number => exact Or.inr ⟨_, .integer named out⟩
      | none =>
          have inRange := Value.firstOut_eq_none_iff.mp out
          by_cases blank : "" ∈ Text.pieces '.' field
          · exact Or.inr ⟨_, .path named inRange blank⟩
          · cases taken : operator.accepts json.mirrored.coerce with
            | true => exact Or.inl ⟨operator, named, inRange, blank, taken⟩
            | false => exact Or.inr ⟨_, .domain named inRange blank taken⟩
  | composite op children =>
      by_cases given : children = []
      · subst given
        exact Or.inr ⟨_, .empty⟩
      · by_cases known : op = "and" ∨ op = "or"
        · exact Or.inl ⟨given, known⟩
        · exact Or.inr ⟨_, .combinator given known⟩

/-! The checks of several entries. -/

section Several

variable {fault : Fault} {entries first second : List RawFilter}

theorem sound_or_firstOffends (entries : List RawFilter) :
    (∀ entry ∈ entries, entry.Sound) ∨ ∃ fault, FirstOffends entries fault := by
  induction entries with
  | nil => exact Or.inl (List.forall_mem_nil _)
  | cons entry rest ih =>
      rcases sound_or_offends entry with sound | ⟨fault, offends⟩
      · rcases ih with each | ⟨fault, behind⟩
        · exact Or.inl (List.forall_mem_cons.mpr ⟨sound, each⟩)
        · exact Or.inr ⟨fault, .later sound behind⟩
      · exact Or.inr ⟨fault, .here offends⟩

theorem firstOffends_append (offends : FirstOffends (first ++ second) fault) :
    FirstOffends first fault ∨ (∀ entry ∈ first, entry.Sound) ∧ FirstOffends second fault := by
  induction first with
  | nil => exact Or.inr ⟨List.forall_mem_nil _, offends⟩
  | cons entry rest ih =>
      cases offends with
      | here offends => exact Or.inl (.here offends)
      | later sound behind =>
          rcases ih behind with inRest | ⟨each, after⟩
          · exact Or.inl (.later sound inRest)
          · exact Or.inr ⟨List.forall_mem_cons.mpr ⟨sound, each⟩, after⟩

theorem firstOffends_iff : FirstOffends entries fault ↔
    ∃ before entry after, entries = before ++ entry :: after ∧ (∀ earlier ∈ before, earlier.Sound) ∧
      entry.Offends fault := by
  constructor
  · intro offends
    induction offends with
    | here offends => exact ⟨[], _, _, rfl, List.forall_mem_nil _, offends⟩
    | @later entry _ _ sound _ ih =>
        obtain ⟨before, found, after, rfl, each, offends⟩ := ih
        exact ⟨entry :: before, found, after, rfl, List.forall_mem_cons.mpr ⟨sound, each⟩, offends⟩
  · rintro ⟨before, entry, after, rfl, each, offends⟩
    induction before with
    | nil => exact .here offends
    | cons earlier rest ih =>
        obtain ⟨sound, inRest⟩ := List.forall_mem_cons.mp each
        exact .later sound (ih inRest)

end Several

end RawFilter

/-! What becomes of entries. -/

namespace Node

variable {standard : String}

theorem leafOfRaw_of_sound {field op : String} {json : Json} {own : Option String}
    (sound : RawFilter.Sound (.leaf field op json own)) :
    ∃ leaf, leafOfRaw field op json (own.getD standard) = .ok leaf ∧
      RawFilter.TypedAs standard (.leaf field op json own) (.leaf leaf) := by
  obtain ⟨operator, named, inRange, full, taken⟩ := sound
  have decoded : Value.ofJson json = .ok json.mirrored := Value.ofJson_ok_iff.mpr ⟨inRange, rfl⟩
  cases parsed : FieldPath.parse field with
  | error fault => exact absurd (FieldPath.parse_error_iff.mp parsed).1 full
  | ok path =>
      refine ⟨⟨path, operator, json.mirrored.coerce, own.getD standard⟩, ?_, ?_⟩
      · have known := (Operator.ofSymbol?_eq_some_iff op operator).mpr named
        exact leafOfRaw_ok_iff.mpr ⟨operator, _, path, known, decoded, parsed, taken, rfl⟩
      · exact .leaf (FieldPath.segments_of_parse parsed) named

theorem leafOfRaw_of_offends {field op group : String} {json : Json} {own : Option String}
    {fault : Fault} (offends : RawFilter.Offends (.leaf field op json own) fault) :
    leafOfRaw field op json group = .error fault := by
  have registered {operator : Operator} (named : operator.symbol = op) :
      Operator.ofSymbol? op = some operator :=
    (Operator.ofSymbol?_eq_some_iff op operator).mpr named
  cases offends with
  | operator unknown =>
      have unregistered : Operator.ofSymbol? op = none := by
        rw [Option.eq_none_iff_forall_ne_some]
        intro operator known
        exact unknown operator ((Operator.ofSymbol?_eq_some_iff op operator).mp known)
      rw [leafOfRaw, unregistered]
  | @integer _ _ _ _ operator number named out =>
      have refused : Value.ofJson json = .error number := by
        rw [Value.ofJson_eq, out]
        rfl
      exact leafOfRaw_of_refused field group (registered named) refused
  | path named inRange blank =>
      rw [leafOfRaw, registered named, Value.ofJson_ok_iff.mpr ⟨inRange, rfl⟩]
      simp only [Leaf.of, FieldPath.parse_error_iff.mpr ⟨blank, rfl⟩]
      rfl
  | domain named inRange full outside =>
      rw [leafOfRaw, registered named, Value.ofJson_ok_iff.mpr ⟨inRange, rfl⟩]
      cases parsed : FieldPath.parse field with
      | error fault => exact absurd (FieldPath.parse_error_iff.mp parsed).1 full
      | ok path =>
          have shown := FieldPath.text_of_parse parsed
          simp [Leaf.of, parsed, bind, Except.bind, outside, Leaf.refusal, shown, named]

mutual

theorem ofRaw_of_sound : (entry : RawFilter) → (∀ inner ∈ entry.preorder, inner.Sound) →
    ∃ node, ofRaw standard entry = .ok node ∧ entry.TypedAs standard node
  | .leaf field op json own, each => by
      obtain ⟨leaf, made, typed⟩ := leafOfRaw_of_sound (each _ (List.mem_singleton_self _))
      exact ⟨.leaf leaf, by rw [ofRaw, made]; rfl, typed⟩
  | .composite op children, each => by
      obtain ⟨sound, inside⟩ := List.forall_mem_cons.mp each
      obtain ⟨given, combinator, known⟩ := RawFilter.sound_composite sound
      obtain ⟨nodes, read, typed⟩ := ofRawAll_of_sound children inside
      cases typed with
      | nil => exact absurd rfl given
      | cons first rest =>
          refine ⟨_, (ofRaw_composite_ok _ _ _).mpr ⟨combinator, _, _, known, read, rfl⟩, ?_⟩
          exact .composite ((Combinator.ofSymbol?_eq_some_iff op combinator).mp known)
            (.cons first rest)

theorem ofRawAll_of_sound : (entries : List RawFilter) →
    (∀ inner ∈ RawFilter.preorderOfAll entries, inner.Sound) →
      ∃ nodes, ofRawAll standard entries = .ok nodes ∧
        List.Forall₂ (RawFilter.TypedAs standard) entries nodes
  | [], _ => ⟨[], rfl, .nil⟩
  | entry :: rest, each => by
      obtain ⟨inEntry, inRest⟩ := List.forall_mem_append.mp each
      obtain ⟨first, readFirst, typedFirst⟩ := ofRaw_of_sound entry inEntry
      obtain ⟨others, readRest, typedRest⟩ := ofRawAll_of_sound rest inRest
      exact ⟨first :: others,
        (ofRawAll_cons_ok _ _ _).mpr ⟨first, others, readFirst, readRest, rfl⟩,
        .cons typedFirst typedRest⟩

end

mutual

theorem ofRaw_of_offends :
    (entry : RawFilter) → ∀ {fault}, RawFilter.FirstOffends entry.preorder fault →
    ofRaw standard entry = .error fault
  | .leaf field op json own, fault, offends => by
      cases offends with
      | here offends =>
          rw [ofRaw, leafOfRaw_of_offends offends]
          rfl
      | later _ behind => cases behind
  | .composite op children, fault, offends => by
      cases offends with
      | here offends =>
          cases offends with
          | empty => rfl
          | combinator given unknown =>
              obtain ⟨first, rest, rfl⟩ := List.exists_cons_of_ne_nil given
              obtain ⟨notAnd, notOr⟩ := not_or.mp unknown
              have unregistered : Combinator.ofSymbol? op = none := by
                rw [Combinator.ofSymbol?, if_neg notAnd, if_neg notOr]
              rw [ofRaw, Combinator.parse, unregistered]
              rfl
      | later sound behind =>
          obtain ⟨_, combinator, known⟩ := RawFilter.sound_composite sound
          exact ofRaw_composite_error known (ofRawAll_of_offends children behind)

theorem ofRawAll_of_offends : (entries : List RawFilter) → ∀ {fault},
    RawFilter.FirstOffends (RawFilter.preorderOfAll entries) fault →
      ofRawAll standard entries = .error fault
  | [], fault, offends => by cases offends
  | entry :: rest, fault, offends => by
      rcases RawFilter.firstOffends_append offends with inEntry | ⟨sound, inRest⟩
      · rw [ofRawAll, ofRaw_of_offends entry inEntry]
        rfl
      · obtain ⟨first, read, _⟩ := ofRaw_of_sound entry sound
        rw [ofRawAll, read, ofRawAll_of_offends rest inRest]
        rfl

end

theorem ofRawAll_error_iff {entries : List RawFilter} {fault : Fault} :
    ofRawAll standard entries = .error fault ↔
      RawFilter.FirstOffends (RawFilter.preorderOfAll entries) fault := by
  refine ⟨fun failed => ?_, ofRawAll_of_offends entries⟩
  rcases RawFilter.sound_or_firstOffends (RawFilter.preorderOfAll entries) with sound | ⟨_, offends⟩
  · obtain ⟨nodes, read, _⟩ := ofRawAll_of_sound entries sound
    cases failed.symm.trans read
  · cases failed.symm.trans (ofRawAll_of_offends entries offends)
    exact offends

theorem ofRawAll_typed {entries : List RawFilter} {nodes : List Node}
    (read : ofRawAll standard entries = .ok nodes) :
    (∀ entry ∈ RawFilter.preorderOfAll entries, entry.Sound) ∧
      List.Forall₂ (RawFilter.TypedAs standard) entries nodes := by
  rcases RawFilter.sound_or_firstOffends (RawFilter.preorderOfAll entries) with sound | ⟨_, offends⟩
  · obtain ⟨_, same, typed⟩ := ofRawAll_of_sound entries sound
    cases read.symm.trans same
    exact ⟨sound, typed⟩
  · cases read.symm.trans (ofRawAll_of_offends entries offends)

/-- Raw entries become typed trees, entry by entry, exactly when nothing is wrong with any of them;
and otherwise they are refused for what is wrong with the first, a composite coming before the
entries inside it. -/
theorem ofRawAll_checked (standard : String) (filters : List RawFilter) :
    ((∃ nodes, ofRawAll standard filters = .ok nodes) ↔
        ∀ entry ∈ RawFilter.preorderOfAll filters, entry.Sound) ∧
      (∀ nodes, ofRawAll standard filters = .ok nodes →
        List.Forall₂ (RawFilter.TypedAs standard) filters nodes) ∧
      ∀ fault, ofRawAll standard filters = .error fault ↔
        ∃ before entry after, RawFilter.preorderOfAll filters = before ++ entry :: after ∧
          (∀ earlier ∈ before, earlier.Sound) ∧ entry.Offends fault := by
  refine ⟨⟨?_, ?_⟩, fun nodes read => (ofRawAll_typed read).2, fun fault => ?_⟩
  · rintro ⟨nodes, read⟩
    exact (ofRawAll_typed read).1
  · intro sound
    obtain ⟨nodes, read, _⟩ := ofRawAll_of_sound filters sound
    exact ⟨nodes, read⟩
  · rw [ofRawAll_error_iff, RawFilter.firstOffends_iff]

/-- The second composite of the last entry is empty and misnamed, but a condition before it is at
fault. -/
theorem unknown_operator_first :
    let visited : RawFilter := .leaf "visits.day" "<" (.text "2018-12-15") none
    let unknown : RawFilter := .leaf "name" "~" (.text "K") none
    let filters : List RawFilter :=
      [.composite "or" [visited],
        .composite "and" [visited, .composite "or" [unknown], .composite "xor" []]]
    (∃ nodes, ofRawAll "own" [.composite "or" [visited]] = .ok nodes ∧
      List.Forall₂ (RawFilter.TypedAs "own") [.composite "or" [visited]] nodes) ∧
    ∃ before entry after, RawFilter.preorderOfAll filters = before ++ entry :: after ∧
      (∀ earlier ∈ before, earlier.Sound) ∧ entry.Offends (.unknownOperator "name" "~") := by
  intro visited unknown filters
  constructor
  · obtain ⟨nodes, read⟩ : ∃ nodes, ofRawAll "own" [.composite "or" [visited]] = .ok nodes :=
      ⟨_, rfl⟩
    exact ⟨nodes, read, (ofRawAll_checked "own" _).2.1 nodes read⟩
  · exact ((ofRawAll_checked "own" filters).2.2 _).mp rfl

end Node

end FilterQuery
