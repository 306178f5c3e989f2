import FilterQuery.Proofs.Meaning
import FilterQuery.Proofs.ReadFilters

/-!
Where a value stands. The value of a condition is one field of a record, which is an item of a list
of entries, which may be a field of another record, and so on. Main statement: what is read with one
value in such a place is read with any other, and differs in that value only; and when the condition
is at fault, so is the whole.
-/

namespace FilterQuery

/-! Records with one field given anew. -/

namespace Json

/-- The field that holds the value of a condition, and the children of a composite. -/
def valueName : String := "value"

section Fields

variable {Name Field : Type} {names : List Name} {read next : Name → Option Field}

theorem mapM_congr (same : ∀ name ∈ names, next name = read name) :
    names.mapM next = names.mapM read := by
  induction names with
  | nil => rfl
  | cons name rest ih =>
      obtain ⟨here, inRest⟩ := List.forall_mem_cons.mp same
      rw [List.mapM_cons, List.mapM_cons, here, ih inRest]

theorem mapM_set {fields : List Field} (found : names.mapM read = some fields) (once : names.Nodup)
    {place : Nat} {name : Name} (named : names[place]? = some name) {field : Field}
    (here : ∀ {given}, read name = some given → next name = some field)
    (others : ∀ other, other ≠ name → next other = read other) :
    names.mapM next = some (fields.set place field) := by
  induction names generalizing place fields with
  | nil => cases named
  | cons first rest ih =>
      obtain ⟨fresh, onceRest⟩ := List.nodup_cons.mp once
      simp only [List.mapM_cons, Option.bind_eq_bind, Option.bind_eq_some_iff, Option.pure_def,
        Option.some.injEq] at found
      obtain ⟨given, readFirst, givenRest, readRest, rfl⟩ := found
      cases place with
      | zero =>
          cases named
          have same := mapM_congr fun other held => others other (ne_of_mem_of_not_mem held fresh)
          rw [List.mapM_cons, here readFirst, same, readRest]
          rfl
      | succ place =>
          have apart : first ≠ name :=
            (ne_of_mem_of_not_mem (List.mem_of_getElem? (l := rest) named) fresh).symm
          rw [List.mapM_cons, others first apart, readFirst, ih readRest onceRest named]
          rfl

theorem mapM_around {before after : List Name} {first : Name} {results : List Field}
    (found : (before ++ first :: after).mapM read = some results) :
    ∃ ahead result behind, ahead.length = before.length ∧ read first = some result ∧
      results = ahead ++ result :: behind ∧
        ∀ item, (before ++ item :: after).mapM read = (read item).map fun given =>
          ahead ++ given :: behind := by
  induction before generalizing results with
  | nil =>
      simp only [List.nil_append, List.mapM_cons, Option.bind_eq_bind, Option.bind_eq_some_iff,
        Option.pure_def, Option.some.injEq] at found
      obtain ⟨result, readFirst, behind, readAfter, rfl⟩ := found
      refine ⟨[], result, behind, rfl, readFirst, rfl, fun item => ?_⟩
      rw [List.nil_append, List.mapM_cons, readAfter]
      cases read item <;> rfl
  | cons name rest ih =>
      simp only [List.cons_append, List.mapM_cons, Option.bind_eq_bind, Option.bind_eq_some_iff,
        Option.pure_def, Option.some.injEq] at found
      obtain ⟨given, readName, others, readRest, rfl⟩ := found
      obtain ⟨ahead, result, behind, sameLength, readFirst, rfl, around⟩ := ih readRest
      refine ⟨given :: ahead, result, behind, congrArg (· + 1) sameLength, readFirst, rfl,
        fun item => ?_⟩
      rw [List.cons_append, List.mapM_cons, around, readName]
      cases read item <;> rfl

end Fields

theorem field?_other {name : String} (other : name ≠ valueName)
    (members others : List (String × Json)) (value next : Json) :
    field? name (members ++ (valueName, value) :: others) =
      field? name (members ++ (valueName, next) :: others) := by
  simp [field?, other.symm]

theorem field?_value {members others : List (String × Json)} {value : Json} {given : Option Json}
    (found : field? valueName (members ++ (valueName, value) :: others) = some given)
    (next : Json) :
    field? valueName (members ++ (valueName, next) :: others) = some (some next) := by
  simp only [field?, List.filter_append, List.filter_cons, decide_true, if_true] at found ⊢
  cases before : members.filter (·.1 = valueName) with
  | nil =>
      cases after : others.filter (·.1 = valueName) with
      | nil => rfl
      | cons member rest => simp [before, after] at found
  | cons member rest => cases rest <;> simp [before] at found

variable {names : List String} {place : Nat} {fields : List (Option Json)}

theorem record?_members {members others : List (String × Json)} {value : Json}
    (record : (Json.object (members ++ (valueName, value) :: others)).record? names = some fields)
    (once : names.Nodup) (named : names[place]? = some valueName) (next : Json) :
    (Json.object (members ++ (valueName, next) :: others)).record? names =
      some (fields.set place (some next)) :=
  mapM_set record once named (fun found => field?_value found next) fun _ other =>
    field?_other other members others next value

theorem record?_items {before after : List Json} {value : Json}
    (record : (Json.list (before ++ value :: after)).record? names = some fields) (next : Json) :
    (Json.list (before ++ next :: after)).record? names =
      some (fields.set before.length (some next)) := by
  have replaced : before ++ next :: after = (before ++ value :: after).set before.length next := by
    simp
  have inside : before.length < (before ++ value :: after).length := by simp
  rw [replaced]
  generalize before ++ value :: after = items at record inside
  simp only [record?, List.length_set] at record ⊢
  split at record
  · rename_i short
    cases record
    rw [if_pos short, Option.some.injEq]
    refine List.ext_getElem? fun index => ?_
    by_cases same : before.length = index
    · subst same
      simp [inside, Nat.lt_of_lt_of_le inside short]
    · simp [same, Function.comp_def]
  · cases record

end Json

/-! Trees of records. -/

namespace Json.Written

theorem denotedItems?_eq_mapM (items : List Written) :
    denotedItems? items = items.mapM denoted? := by
  induction items with
  | nil => rfl
  | cons item rest ih =>
      rw [denotedItems?, ih, List.mapM_cons]
      rfl

def denotedMember? (member : List Mark × Written) : Option (String × Json) := do
  let key ← textOf? member.1
  let value ← member.2.denoted?
  some (key, value)

theorem denotedMembers?_eq_mapM (members : List (List Mark × Written)) :
    denotedMembers? members = members.mapM denotedMember? := by
  induction members with
  | nil => rfl
  | cons member rest ih =>
      rw [denotedMembers?, ih, List.mapM_cons, denotedMember?]
      cases textOf? member.1 with
      | none => rfl
      | some key => cases member.2.denoted? <;> rfl

theorem denotedMember?_named {key : List Mark} {name : String} (named : textOf? key = some name)
    (value : Written) :
    denotedMember? (key, value) = value.denoted?.map (name, ·) := by
  rw [denotedMember?, named]
  cases value.denoted? <;> rfl

/-- A record by the tree of its value, which is the member of that name or the item at that
place. -/
inductive ValueField (place : Nat) : (Written → Written) → Prop where
  | member {key : List Mark} (named : textOf? key = some valueName)
      (members others : List (List Mark × Written)) :
      ValueField place fun value => .object (members ++ (key, value) :: others)
  | item {before : List Written} (placed : before.length = place) (after : List Written) :
      ValueField place fun value => .list (before ++ value :: after)

theorem ValueField.denoted {place : Nat} {record : Written → Written}
    (field : ValueField place record) {first : Written} {json : Json}
    (denoted : (record first).denoted? = some json) :
    ∃ filled : Json → Json, (∀ value, (record value).denoted? = value.denoted?.map filled) ∧
      ∀ {names : List String} {fields : List (Option Json)},
        json.record? names = some fields → names.Nodup → names[place]? = some valueName →
          ∀ next, (filled next).record? names = some (fields.set place (some next)) := by
  cases field with
  | @member key named members others =>
      simp only [Written.denoted?, denotedMembers?_eq_mapM, Option.map_eq_some_iff] at denoted ⊢
      obtain ⟨_, found, rfl⟩ := denoted
      obtain ⟨ahead, held, behind, _, readFirst, rfl, around⟩ := mapM_around found
      rw [denotedMember?_named named, Option.map_eq_some_iff] at readFirst
      obtain ⟨given, _, rfl⟩ := readFirst
      refine ⟨fun value => .object (ahead ++ (valueName, value) :: behind), fun value => ?_,
        fun record once atPlace next => record?_members record once atPlace next⟩
      rw [around, denotedMember?_named named]
      cases value.denoted? <;> rfl
  | @item before placed after =>
      simp only [Written.denoted?, denotedItems?_eq_mapM, Option.map_eq_some_iff] at denoted ⊢
      obtain ⟨_, found, rfl⟩ := denoted
      obtain ⟨ahead, held, behind, sameLength, readFirst, rfl, around⟩ := mapM_around found
      refine ⟨fun value => .list (ahead ++ value :: behind), fun value => ?_,
        fun record once atPlace next => ?_⟩
      · rw [around]
        cases value.denoted? <;> rfl
      · rw [← placed, ← sameLength]
        exact record?_items record next

end Json.Written

/-! Entries. -/

namespace RawFilter

def conditionOf? (fields : List (Option Json)) : Option RawFilter :=
  match fields with
  | [some field, some op, value, group] => do
      let field ← field.text?
      let op ← op.text?
      let group ← match group with
        | none | some .null => some none
        | some group => group.text?.map some
      some (.leaf field op (value.getD .null).settled group)
  | _ => none

theorem leaf?_eq (entry : Json) :
    leaf? entry = (entry.record? ["field", "op", "value", "condition_group"]).bind conditionOf? :=
  rfl

theorem conditionOf?_set {fields : List (Option Json)} {condition : RawFilter}
    (read : conditionOf? fields = some condition) :
    ∃ field op own, ∀ value,
      conditionOf? (fields.set 2 (some value)) = some (.leaf field op value.settled own) := by
  unfold conditionOf? at read
  split at read
  · rename_i field op value group
    simp only [Option.bind_eq_bind, Option.bind_eq_some_iff] at read
    obtain ⟨name, isName, symbol, isSymbol, read⟩ := read
    split at read
    · exact ⟨name, symbol, none, fun value => by simp [conditionOf?, isName, isSymbol]⟩
    · exact ⟨name, symbol, none, fun value => by simp [conditionOf?, isName, isSymbol]⟩
    · rename_i given present
      obtain ⟨own, isOwn, _⟩ := Option.bind_eq_some_iff.mp read
      exact ⟨name, symbol, own, fun value => by simp [conditionOf?, isName, isSymbol, isOwn]⟩
  · cases read

def partsOf? (fields : List (Option Json)) : Option (String × List Json) :=
  match fields with
  | [some op, some value] => do some (← op.text?, ← value.list?)
  | _ => none

theorem compositeParts?_eq (entry : Json) :
    compositeParts? entry = (entry.record? ["op", "value"]).bind partsOf? :=
  rfl

theorem partsOf?_set {fields : List (Option Json)} {op : String} {children : List Json}
    (read : partsOf? fields = some (op, children)) (others : List Json) :
    partsOf? (fields.set 1 (some (.list others))) = some (op, others) := by
  unfold partsOf? at read
  split at read
  · rename_i symbol value
    simp only [Option.bind_eq_bind, Option.bind_eq_some_iff, Option.some.injEq,
      Prod.mk.injEq] at read
    obtain ⟨name, isName, _, _, rfl, _⟩ := read
    simp only [List.set, partsOf?, isName]
    rfl
  · cases read

theorem exists_parts {entry : Json} {read : RawFilter} (noLeaf : leaf? entry = none)
    (found : ofJson? entry = some read) :
    ∃ op children, compositeParts? entry = some (op, children) := by
  rw [ofJson?] at found
  simp only [noLeaf] at found
  split at found
  · cases found
  · rename_i op children parts
    exact ⟨op, children, parts⟩

/-- A list of entries by one condition in it, which stands in the list or below one of its
composites. -/
inductive Surrounds : (RawFilter → List RawFilter) → Prop where
  | beside (before after : List RawFilter) : Surrounds fun entry => before ++ entry :: after
  | inside {inner : RawFilter → List RawFilter} (surrounds : Surrounds inner) (op : String)
      (before after : List RawFilter) :
      Surrounds fun entry => before ++ .composite op (inner entry) :: after

end RawFilter

namespace Json.Written

def filterOf? (tree : Written) : Option RawFilter :=
  tree.denoted?.bind RawFilter.ofJson?

def filtersOf? (trees : List Written) : Option (List RawFilter) :=
  trees.mapM filterOf?

theorem filtersOf?_eq (trees : List Written) :
    filtersOf? trees = (denotedItems? trees).bind (List.mapM RawFilter.ofJson?) := by
  induction trees with
  | nil => rfl
  | cons tree rest ih =>
      rw [filtersOf?, List.mapM_cons, ← filtersOf?, ih, filterOf?, denotedItems?]
      cases tree.denoted? with
      | none => rfl
      | some json =>
          cases denotedItems? rest with
          | none => cases RawFilter.ofJson? json <;> simp
          | some others =>
              simp only [Option.bind_eq_bind, Option.bind_some, List.mapM_cons]

/-- A list of entries by the tree of a value, which is the value of a condition in the list or below
one of its composites. -/
inductive ValuePlace : (Written → List Written) → Prop where
  | condition {record : Written → Written}
      (field : ValueField 2 record) {value : Written} {json : Json}
      {condition : RawFilter} (denoted : (record value).denoted? = some json)
      (fits : RawFilter.leaf? json = some condition) (before after : List Written) :
      ValuePlace fun value => before ++ record value :: after
  -- What fits a condition is read as one, whatever else it fits.
  | composite {record : Written → Written} (field : ValueField 1 record)
      (noLeaf : ∀ {value json}, (record value).denoted? = some json → RawFilter.leaf? json = none)
      {inner : Written → List Written} (place : ValuePlace inner) (before after : List Written) :
      ValuePlace fun value => before ++ record (.list (inner value)) :: after

theorem ValueField.filterOf?_condition {record : Written → Written} (field : ValueField 2 record)
    {first : Written} {json : Json} {condition : RawFilter}
    (denoted : (record first).denoted? = some json) (fits : RawFilter.leaf? json = some condition) :
    ∃ name op own, ∀ value, (record value).filterOf? =
      value.denoted?.map fun json => .leaf name op json.settled own := by
  obtain ⟨filled, denotes, records⟩ := field.denoted denoted
  rw [RawFilter.leaf?_eq, Option.bind_eq_some_iff] at fits
  obtain ⟨fields, record, read⟩ := fits
  obtain ⟨name, op, own, same⟩ := RawFilter.conditionOf?_set read
  refine ⟨name, op, own, fun value => ?_⟩
  rw [filterOf?, denotes]
  cases value.denoted? with
  | none => rfl
  | some json =>
      have fitsHere : RawFilter.leaf? (filled json) = some (.leaf name op json.settled own) := by
        rw [RawFilter.leaf?_eq, records record (by decide) rfl, Option.bind_some, same]
      exact RawFilter.ofJson?_of_leaf fitsHere

theorem ValueField.filterOf?_composite {record : Written → Written} (field : ValueField 1 record)
    (noLeaf : ∀ {value json}, (record value).denoted? = some json → RawFilter.leaf? json = none)
    {first : List Written} {read : RawFilter}
    (found : (record (.list first)).filterOf? = some read) :
    ∃ op, ∀ trees, (record (.list trees)).filterOf? = (filtersOf? trees).map (.composite op) := by
  obtain ⟨json, denoted, made⟩ := Option.bind_eq_some_iff.mp found
  obtain ⟨op, children, parts⟩ := RawFilter.exists_parts (noLeaf denoted) made
  obtain ⟨filled, denotes, records⟩ := field.denoted denoted
  rw [RawFilter.compositeParts?_eq, Option.bind_eq_some_iff] at parts
  obtain ⟨fields, record, isComposite⟩ := parts
  refine ⟨op, fun trees => ?_⟩
  have denotesHere := denotes (.list trees)
  rw [filtersOf?_eq, filterOf?, denotesHere]
  rw [Written.denoted?] at denotesHere ⊢
  cases denotesItems : denotedItems? trees with
  | none => rfl
  | some items =>
      rw [denotesItems] at denotesHere
      have partsHere : RawFilter.compositeParts? (filled (.list items)) = some (op, items) := by
        rw [RawFilter.compositeParts?_eq, records record (by decide) rfl, Option.bind_some,
          RawFilter.partsOf?_set isComposite]
      exact RawFilter.ofJson?_of_composite (noLeaf denotesHere) partsHere

theorem ValuePlace.filtersOf? {trees : Written → List Written} (place : ValuePlace trees)
    {first : Written} {entries : List RawFilter}
    (read : Written.filtersOf? (trees first) = some entries) :
    ∃ around name op own, RawFilter.Surrounds around ∧ ∀ value,
      Written.filtersOf? (trees value) = value.denoted?.map fun json =>
        around (.leaf name op json.settled own) := by
  induction place generalizing entries with
  | condition field denoted fits before after =>
      obtain ⟨name, op, own, same⟩ := field.filterOf?_condition denoted fits
      obtain ⟨ahead, _, behind, _, _, _, around⟩ := mapM_around read
      refine ⟨_, name, op, own, .beside ahead behind, fun value => ?_⟩
      rw [Written.filtersOf?, around, same]
      cases value.denoted? <;> rfl
  | composite field noLeaf place before after ih =>
      obtain ⟨ahead, made, behind, _, readHere, _, around⟩ := mapM_around read
      obtain ⟨op, same⟩ := field.filterOf?_composite noLeaf readHere
      rw [same, Option.map_eq_some_iff] at readHere
      obtain ⟨children, readInner, _⟩ := readHere
      obtain ⟨inside, name, symbol, own, surrounds, sameInside⟩ := ih readInner
      refine ⟨_, name, symbol, own, surrounds.inside op ahead behind, fun value => ?_⟩
      rw [Written.filtersOf?, around, same, sameInside]
      cases value.denoted? <;> rfl

end Json.Written

/-! Trees of filters. -/

theorem RawFilter.Surrounds.ne_nil {around : RawFilter → List RawFilter}
    (surrounds : Surrounds around) (entry : RawFilter) : around entry ≠ [] := by
  cases surrounds <;> simp

namespace Node

variable {standard : String}

theorem ofRawAll_around {before after : List RawFilter} {first : RawFilter} {nodes : List Node}
    (read : ofRawAll standard (before ++ first :: after) = .ok nodes) :
    ∃ ahead node behind, ofRaw standard first = .ok node ∧
      ∀ entry, ofRawAll standard (before ++ entry :: after) =
        (ofRaw standard entry).map fun node => ahead ++ node :: behind := by
  induction before generalizing nodes with
  | nil =>
      obtain ⟨node, behind, readFirst, readAfter, _⟩ := (ofRawAll_cons_ok _ _ _).mp read
      refine ⟨[], node, behind, readFirst, fun entry => ?_⟩
      rw [List.nil_append, ofRawAll, readAfter]
      cases ofRaw standard entry <;> rfl
  | cons given rest ih =>
      obtain ⟨made, _, readGiven, readRest, _⟩ := (ofRawAll_cons_ok _ _ _).mp read
      obtain ⟨ahead, node, behind, readFirst, around⟩ := ih readRest
      refine ⟨made :: ahead, node, behind, readFirst, fun entry => ?_⟩
      rw [List.cons_append, ofRawAll, readGiven, around]
      cases ofRaw standard entry <;> rfl

end Node

/-- Where other entries can be read, they are read around any condition, and only the condition can
be at fault. -/
theorem RawFilter.Surrounds.reads {around : RawFilter → List RawFilter}
    (surrounds : Surrounds around) {standard : String} {first : RawFilter} {nodes : List Node}
    (read : Node.ofRawAll standard (around first) = .ok nodes) :
    ∃ before after : List Leaf, ∀ entry,
      (∀ fault, Node.ofRaw standard entry = .error fault →
        Node.ofRawAll standard (around entry) = .error fault) ∧
      ∀ node, Node.ofRaw standard entry = .ok node →
        ∃ others, Node.ofRawAll standard (around entry) = .ok others ∧
          Node.leavesOfAll others = before ++ node.leaves ++ after := by
  induction surrounds generalizing nodes with
  | beside before after =>
      obtain ⟨ahead, _, behind, _, same⟩ := Node.ofRawAll_around read
      refine ⟨Node.leavesOfAll ahead, Node.leavesOfAll behind, fun entry => ⟨?_, ?_⟩⟩
      · intro fault failed
        rw [same, failed]
        rfl
      · intro node made
        refine ⟨ahead ++ node :: behind, by rw [same, made]; rfl, ?_⟩
        rw [Node.leavesOfAll_append, Node.leavesOfAll, List.append_assoc]
  | @inside inner surrounds op before after ih =>
      obtain ⟨ahead, _, behind, readHere, same⟩ := Node.ofRawAll_around read
      obtain ⟨combinator, _, _, known, readInner, _⟩ := (Node.ofRaw_composite_ok _ _ _).mp readHere
      obtain ⟨innerBefore, innerAfter, inside⟩ := ih readInner
      refine ⟨Node.leavesOfAll ahead ++ innerBefore, innerAfter ++ Node.leavesOfAll behind,
        fun entry => ⟨?_, ?_⟩⟩
      · intro fault failed
        rw [same, Node.ofRaw_composite_error known ((inside entry).1 fault failed)]
        rfl
      · intro node made
        obtain ⟨others, readOthers, leaves⟩ := (inside entry).2 node made
        obtain ⟨child, rest, rfl⟩ : ∃ child rest, others = child :: rest := by
          obtain ⟨other, more, entries⟩ := List.exists_cons_of_ne_nil (surrounds.ne_nil entry)
          rw [entries] at readOthers
          obtain ⟨child, rest, _, _, same⟩ := (Node.ofRawAll_cons_ok _ _ _).mp readOthers
          exact ⟨child, rest, same⟩
        have composed :=
          (Node.ofRaw_composite_ok op (inner entry) _).mpr ⟨combinator, child, rest, known,
            readOthers, rfl⟩
        refine ⟨_, by rw [same, composed]; rfl, ?_⟩
        rw [Node.leavesOfAll_append, Node.leavesOfAll, Node.leaves, ← Node.leavesOfAll, leaves]
        simp

/-! Texts. -/

namespace Json.Written

theorem nestingOfItems_append (first second : List Written) :
    nestingOfItems (first ++ second) = max (nestingOfItems first) (nestingOfItems second) := by
  induction first with
  | nil => simp [nestingOfItems]
  | cons tree rest ih => rw [List.cons_append, nestingOfItems, ih, nestingOfItems, Nat.max_assoc]

theorem nestingOfMembers_append (first second : List (List Mark × Written)) :
    nestingOfMembers (first ++ second) =
      max (nestingOfMembers first) (nestingOfMembers second) := by
  induction first with
  | nil => simp [nestingOfMembers]
  | cons member rest ih =>
      rw [List.cons_append, nestingOfMembers, ih, nestingOfMembers, Nat.max_assoc]

theorem ValueField.nesting {place : Nat} {record : Written → Written}
    (field : ValueField place record) {first second : Written}
    (same : first.nesting = second.nesting) :
    (record first).nesting = (record second).nesting := by
  cases field with
  | member named members others =>
      simp only [Written.nesting, nestingOfMembers_append, nestingOfMembers, same]
  | item placed after => simp only [Written.nesting, nestingOfItems_append, nestingOfItems, same]

theorem ValuePlace.nesting {trees : Written → List Written} (place : ValuePlace trees)
    {first second : Written} (same : first.nesting = second.nesting) :
    nestingOfItems (trees first) = nestingOfItems (trees second) := by
  induction place with
  | condition field denoted fits before after =>
      simp only [nestingOfItems_append, nestingOfItems, field.nesting same]
  | composite field noLeaf place before after ih =>
      have inner : (Written.list (_ : List Written)).nesting = (Written.list _).nesting :=
        congrArg (· + 1) ih
      simp only [nestingOfItems_append, nestingOfItems, field.nesting inner]

end Json.Written

theorem RawFilter.readList?_of_written {text : String} {trees : List Json.Written}
    (written : Json.Written.read? text = some (.list trees)) :
    readList? text =
      if (Json.Written.list trees).nesting ≤ Json.Written.maxNesting then
        Json.Written.filtersOf? trees
      else none := by
  rw [readList?, Json.read?, written, Json.Written.filtersOf?_eq]
  simp only [Option.bind_eq_bind, Option.bind_some, Json.Written.toJson?]
  split
  · rw [Json.Written.denoted?]
    cases Json.Written.denotedItems? trees <;> rfl
  · rfl

/-- In a text that can be read, a scalar in the place of a value is read as its condition is, and
everything else as before. What denotes nothing makes the text unreadable, and a fault of the
condition is the fault of the text. -/
theorem Json.Written.ValuePlace.readList {trees : Written → List Written} (place : ValuePlace trees)
    {standard text : String} {first : Scalar} {nodes : List Node}
    (written : read? text = some (.list (trees (.scalar first))))
    (read : Node.readList standard text = .ok nodes) :
    ∃ before after name op group, ∀ {other : String} {scalar : Scalar},
      read? other = some (.list (trees (.scalar scalar))) →
        (scalar.value? = none → Node.readList standard other = .error (.unreadableFilters "")) ∧
        ∀ json, scalar.value? = some json →
          (∀ fault, Node.leafOfRaw name op json.settled group = .error fault →
            Node.readList standard other = .error fault) ∧
          ∀ leaf, Node.leafOfRaw name op json.settled group = .ok leaf →
            ∃ others, Node.readList standard other = .ok others ∧
              Node.leavesOfAll others = before ++ leaf :: after := by
  have sameNesting (scalar other : Scalar) :
      (Written.list (trees (.scalar scalar))).nesting =
        (Written.list (trees (.scalar other))).nesting :=
    congrArg (· + 1) (place.nesting rfl)
  have fits : (Written.list (trees (.scalar first))).nesting ≤ maxNesting := by
    by_contra deep
    rw [Node.readList, RawFilter.readList?_of_written written, if_neg deep] at read
    cases read
  rw [Node.readList, RawFilter.readList?_of_written written, if_pos fits] at read
  cases readEntries : Written.filtersOf? (trees (.scalar first)) with
  | none =>
      rw [readEntries] at read
      cases read
  | some entries =>
      rw [readEntries] at read
      obtain ⟨around, name, op, own, surrounds, same⟩ := place.filtersOf? readEntries
      obtain ⟨json, _, rfl⟩ := Option.map_eq_some_iff.mp ((same _).symm.trans readEntries)
      obtain ⟨before, after, reads⟩ := surrounds.reads read
      refine ⟨before, after, name, op, own.getD standard, fun {other scalar} writtenOther => ?_⟩
      have readOther : Node.readList standard other =
          scalar.value?.elim (.error (.unreadableFilters "")) fun json =>
            Node.ofRawAll standard (around (.leaf name op json.settled own)) := by
        rw [Node.readList, RawFilter.readList?_of_written writtenOther,
          if_pos (sameNesting scalar first ▸ fits), same, Written.denoted?]
        cases scalar.value? <;> rfl
      rw [readOther]
      refine ⟨fun nothing => by rw [nothing, Option.elim_none], fun json denotes => ?_⟩
      rw [denotes, Option.elim_some]
      obtain ⟨failing, succeeding⟩ := reads (.leaf name op json.settled own)
      constructor
      · intro fault failed
        exact failing fault (by rw [Node.ofRaw, failed]; rfl)
      · intro leaf made
        obtain ⟨others, readOthers, leaves⟩ :=
          succeeding (.leaf leaf) (by rw [Node.ofRaw, made]; rfl)
        exact ⟨others, readOthers,
          by rw [leaves, Node.leaves, List.append_assoc, List.singleton_append]⟩

end FilterQuery
