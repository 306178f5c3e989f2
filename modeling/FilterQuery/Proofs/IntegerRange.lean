import FilterQuery.Proofs.ReadFilters

/-!
Integers that no value can hold. A JSON value is looked through for them in the order of its items,
and an object is taken as it is. Main statement: a JSON value is refused for the first integer out
of range that no object holds; and what is not refused becomes the value of the same form, with the
same integers.
-/

namespace FilterQuery

namespace Json

mutual

def integers : Json → List Int
  | .integer number => [number]
  | .list items => integersOfAll items
  | .object members => integersOfMembers members
  | _ => []

def integersOfAll : List Json → List Int
  | [] => []
  | item :: rest => item.integers ++ integersOfAll rest

def integersOfMembers : List (String × Json) → List Int
  | [] => []
  | (_, value) :: rest => value.integers ++ integersOfMembers rest

end

mutual

def openIntegers : Json → List Int
  | .integer number => [number]
  | .list items => openIntegersOfAll items
  | _ => []

def openIntegersOfAll : List Json → List Int
  | [] => []
  | item :: rest => item.openIntegers ++ openIntegersOfAll rest

end

mutual

/-- The value of the same form: every position keeps its kind, a list its order, and an object is
carried whole. -/
def mirrored : Json → Value
  | .null => .null
  | .truth value => .truth value
  | .integer value => .integer value
  | .float value => .float value
  | .text value => .text value
  | .list items => .list (mirroredAll items)
  | .object members => .document (.object members)

def mirroredAll : List Json → List Value
  | [] => []
  | item :: rest => item.mirrored :: mirroredAll rest

end

mutual

theorem toJson_mirrored : (json : Json) → json.mirrored.toJson = json
  | .null | .truth _ | .integer _ | .float _ | .text _ | .object _ => rfl
  | .list items => by rw [mirrored, Value.toJson, itemsToJson_mirroredAll items]

theorem itemsToJson_mirroredAll :
    (items : List Json) → Value.itemsToJson (mirroredAll items) = items
  | [] => rfl
  | item :: rest => by
      rw [mirroredAll, Value.itemsToJson, toJson_mirrored item, itemsToJson_mirroredAll rest]

end

end Json

namespace Value

def firstOut (numbers : List Int) : Option Int :=
  numbers.find? fun number => !isInRange number

def unlessRefused {Result : Type} (refusal : Option Int) (result : Result) : Except Int Result :=
  refusal.elim (.ok result) .error

theorem firstOut_append (first second : List Int) :
    firstOut (first ++ second) = (firstOut first).or (firstOut second) :=
  List.find?_append

theorem unlessRefused_inj {Result : Type} {refusal other : Option Int} {result : Result} :
    unlessRefused refusal result = unlessRefused other result ↔ refusal = other := by
  cases refusal <;> cases other <;> simp [unlessRefused]

mutual

theorem ofJson_eq :
    (json : Json) → ofJson json = unlessRefused (firstOut json.openIntegers) json.mirrored
  | .null | .truth _ | .float _ | .text _ | .object _ => rfl
  | .integer number => by
      rw [ofJson, Json.openIntegers, Json.mirrored, firstOut, List.find?_singleton]
      cases isInRange number <;> rfl
  | .list items => by
      rw [ofJson, Json.openIntegers, Json.mirrored, ofItems_eq items]
      cases firstOut (Json.openIntegersOfAll items) <;> rfl

theorem ofItems_eq : (items : List Json) →
    ofItems items = unlessRefused (firstOut (Json.openIntegersOfAll items)) (Json.mirroredAll items)
  | [] => rfl
  | item :: rest => by
      rw [ofItems_cons, Json.openIntegersOfAll, Json.mirroredAll, firstOut_append, ofJson_eq item,
        ofItems_eq rest]
      -- A refused item is the reason for the whole list, and the rest is not looked at.
      cases firstOut item.openIntegers with
      | some number => rfl
      | none => cases firstOut (Json.openIntegersOfAll rest) <;> rfl

end

theorem firstOut_eq_none_iff {numbers : List Int} :
    firstOut numbers = none ↔ ∀ number ∈ numbers, isInRange number = true := by
  simp [firstOut]

theorem ofJson_ok_iff {json : Json} {value : Value} :
    ofJson json = .ok value ↔
      (∀ number ∈ json.openIntegers, isInRange number = true) ∧ value = json.mirrored := by
  rw [ofJson_eq, ← firstOut_eq_none_iff]
  cases firstOut json.openIntegers <;> simp [unlessRefused, eq_comm]

/-- A JSON value is refused for the first integer out of range outside of objects, and otherwise
becomes the value of the same form, whose JSON form it is. So the first integer out of range of all
decides exactly when it is the first outside of objects as well. -/
theorem ofJson_first_out (json : Json) :
    ofJson json = unlessRefused (firstOut json.openIntegers) json.mirrored ∧
      json.mirrored.toJson = json ∧
        (ofJson json = unlessRefused (firstOut json.integers) json.mirrored ↔
          firstOut json.integers = firstOut json.openIntegers) := by
  refine ⟨ofJson_eq json, json.toJson_mirrored, ?_⟩
  rw [ofJson_eq, unlessRefused_inj, eq_comm]

/-- The one integer that this object holds is out of range, and the object is accepted. -/
theorem ofJson_object_unsearched :
    let json : Json := .object [("a", .integer (Int.pow 2 63))]
    firstOut json.integers = some (Int.pow 2 63) ∧ ofJson json = .ok (.document json) :=
  ⟨by decide, rfl⟩

end Value

end FilterQuery
