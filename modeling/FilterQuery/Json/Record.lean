import FilterQuery.Json

/-!
Records in JSON. A record has named fields in a fixed order and is written as an object, or as a
list of the fields in that order with the last ones left out.
-/

namespace FilterQuery.Json

-- A name that comes twice is refused: neither value has the better claim.
def field? (name : String) (members : List (String × Json)) : Option (Option Json) :=
  match members.filter (·.1 = name) with
  | [] => some none
  | [(_, value)] => some (some value)
  | _ => none

-- Members under other names are passed over.
def record? (names : List String) : Json → Option (List (Option Json))
  | .object members => names.mapM (field? · members)
  | .list items =>
      if items.length ≤ names.length then
        some (names.zipIdx.map fun (_, index) => items[index]?)
      else none
  | _ => none

def text? : Json → Option String
  | .text value => some value
  | _ => none

def list? : Json → Option (List Json)
  | .list items => some items
  | _ => none

/-- One of a fixed set of names, as a text or as an object whose only key is the name and whose
value is null. -/
def choice? : Json → Option String
  | .text name => some name
  | .object [(name, .null)] => some name
  | _ => none

end FilterQuery.Json
