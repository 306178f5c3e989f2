import FilterQuery.Binary64

/-!
JSON values as data. An object lists its members in the order they have; `settled` puts it in the
form in which two objects with the same content are one value: each key once, keys in ascending
order.
-/

namespace FilterQuery

inductive Json where
  | null
  | truth (value : Bool)
  | integer (value : Int)
  | float (value : Binary64)
  | text (value : String)
  | list (items : List Json)
  | object (members : List (String × Json))
  deriving Repr

namespace Json

-- A member whose key comes again is dropped where it stands: the last value of a key is the one
-- that counts.
def addMember (key : String) (value : Json) : List (String × Json) → List (String × Json)
  | [] => [(key, value)]
  | (next, held) :: rest =>
      if key = next then (next, held) :: rest
      else if key < next then (key, value) :: (next, held) :: rest
      else (next, held) :: addMember key value rest

mutual

def settled : Json → Json
  | .list items => .list (settledItems items)
  | .object members => .object (settledMembers members)
  | other => other

def settledItems : List Json → List Json
  | [] => []
  | item :: rest => item.settled :: settledItems rest

def settledMembers : List (String × Json) → List (String × Json)
  | [] => []
  | (key, value) :: rest => addMember key value.settled (settledMembers rest)

end

mutual

/-- Equality that compares floats as numbers, so that a value with a float that is no number differs
from itself. -/
def same : Json → Json → Bool
  | .null, .null => true
  | .truth left, .truth right => left == right
  | .integer left, .integer right => left == right
  | .float left, .float right => left.sameNumber right
  | .text left, .text right => left == right
  | .list left, .list right => sameItems left right
  | .object left, .object right => sameMembers left right
  | _, _ => false

def sameItems : List Json → List Json → Bool
  | [], [] => true
  | left :: leftRest, right :: rightRest => left.same right && sameItems leftRest rightRest
  | _, _ => false

def sameMembers : List (String × Json) → List (String × Json) → Bool
  | [], [] => true
  | (leftKey, left) :: leftRest, (rightKey, right) :: rightRest =>
      leftKey == rightKey && left.same right && sameMembers leftRest rightRest
  | _, _ => false

end

end Json

end FilterQuery
