import FilterQuery.Json.Reader
import FilterQuery.Json.Record

/-!
Filter entries as a request holds them: names, symbols and values that nobody has checked yet.
-/

namespace FilterQuery

inductive RawFilter where
  | leaf (field op : String) (value : Json) (group : Option String)
  | composite (op : String) (children : List RawFilter)
  deriving Repr

namespace Json

theorem sizeOf_snd_lt {key : String} {value : Json} {members : List (String × Json)}
    (member : (key, value) ∈ members) : sizeOf value < sizeOf (Json.object members) := by
  have := List.sizeOf_lt_of_mem member
  simp only [Prod.mk.sizeOf_spec, Json.object.sizeOf_spec] at this ⊢
  omega

theorem sizeOf_field_lt {name : String} {value : Json} {members : List (String × Json)}
    (found : field? name members = some (some value)) :
    sizeOf value < sizeOf (Json.object members) := by
  unfold field? at found
  split at found
  · simp at found
  · rename_i key held only
    simp only [Option.some.injEq] at found
    subst found
    exact sizeOf_snd_lt (List.mem_filter.mp (only ▸ List.mem_singleton_self _)).1
  · simp at found

end Json

namespace RawFilter

/-- The parts of a condition: a field, an operator, a value that may be left out, and a group that
may be. -/
def leaf? (entry : Json) : Option RawFilter := do
  match ← entry.record? ["field", "op", "value", "condition_group"] with
  | [some field, some op, value, group] =>
      let field ← field.text?
      let op ← op.text?
      let group ← match group with
        | none | some .null => some none
        | some group => group.text?.map some
      some (.leaf field op (value.getD .null).settled group)
  | _ => none

def compositeParts? (entry : Json) : Option (String × List Json) := do
  match ← entry.record? ["op", "value"] with
  | [some op, some value] => some (← op.text?, ← value.list?)
  | _ => none

theorem sizeOf_lt_of_record {entry value : Json} {names : List String}
    {fields : List (Option Json)} (record : entry.record? names = some fields)
    (held : some value ∈ fields) : sizeOf value < sizeOf entry := by
  cases entry with
  | object members =>
      simp only [Json.record?] at record
      have step : ∀ names fields, List.mapM (Json.field? · members) names = some fields →
          some value ∈ fields → sizeOf value < sizeOf (Json.object members) := by
        intro names
        induction names with
        | nil => intro fields none_ held; simp at none_; simp [none_] at held
        | cons name rest ih =>
            intro fields found held
            simp only [List.mapM_cons, Option.bind_eq_bind, Option.bind_eq_some_iff,
              Option.pure_def, Option.some.injEq] at found
            obtain ⟨first, foundFirst, others, foundOthers, rfl⟩ := found
            rcases List.mem_cons.mp held with same | later
            · exact Json.sizeOf_field_lt (same ▸ foundFirst)
            · exact ih others foundOthers later
      exact step names fields record held
  | list items =>
      simp only [Json.record?] at record
      split at record
      · simp only [Option.some.injEq] at record
        subst record
        obtain ⟨pair, _, at_⟩ := List.mem_map.mp held
        have := List.sizeOf_lt_of_mem (List.mem_of_getElem? at_)
        simp only [Json.list.sizeOf_spec]
        omega
      · simp at record
  | _ => simp [Json.record?] at record

theorem sizeOf_lt_of_compositeParts {entry child : Json} {op : String} {children : List Json}
    (parts : compositeParts? entry = some (op, children)) (member : child ∈ children) :
    sizeOf child < sizeOf entry := by
  simp only [compositeParts?, Option.bind_eq_bind, Option.bind_eq_some_iff] at parts
  obtain ⟨fields, record, parts⟩ := parts
  split at parts
  · rename_i symbol value
    simp only [Option.bind_eq_some_iff, Option.some.injEq, Prod.mk.injEq] at parts
    obtain ⟨_, _, items, asList, _, rfl⟩ := parts
    have inEntry : sizeOf value < sizeOf entry := sizeOf_lt_of_record record (by simp)
    cases value with
    | list held =>
        simp only [Json.list?, Option.some.injEq] at asList
        subst asList
        have := List.sizeOf_lt_of_mem member
        simp only [Json.list.sizeOf_spec] at inEntry
        omega
    | _ => simp [Json.list?] at asList
  · simp at parts

-- A condition is tried first. An entry whose field cannot be read may still be a composite.
def ofJson? (entry : Json) : Option RawFilter :=
  match leaf? entry with
  | some condition => some condition
  | none =>
      match _parts : compositeParts? entry with
      | none => none
      | some (op, children) =>
          let read := children.attach.mapM fun child => ofJson? child.val
          read.map (.composite op)
termination_by sizeOf entry
decreasing_by exact sizeOf_lt_of_compositeParts _parts child.property

theorem ofJson?_of_leaf {entry : Json} {condition : RawFilter}
    (fits : leaf? entry = some condition) : ofJson? entry = some condition := by
  rw [ofJson?, fits]

theorem ofJson?_of_composite {entry : Json} {op : String} {children : List Json}
    (noLeaf : leaf? entry = none) (parts : compositeParts? entry = some (op, children)) :
    ofJson? entry = (children.mapM ofJson?).map (.composite op) := by
  rw [ofJson?]
  simp only [noLeaf]
  split
  · rename_i missing
    simp [parts] at missing
  · rename_i symbol items found
    obtain ⟨rfl, rfl⟩ : op = symbol ∧ children = items := by simpa [parts] using found
    simp

mutual

def toJson : RawFilter → Json
  | .leaf field op value group =>
      .object ([("field", .text field), ("op", .text op), ("value", value)] ++
        (group.map fun name => ("condition_group", Json.text name)).toList)
  | .composite op children =>
      .object [("op", .text op), ("value", .list (allToJson children))]

def allToJson : List RawFilter → List Json
  | [] => []
  | entry :: rest => entry.toJson :: allToJson rest

end

def readList? (text : String) : Option (List RawFilter) := do
  let entries ← (← Json.read? text).list?
  entries.mapM ofJson?

end RawFilter

end FilterQuery
