import FilterQuery.Dictionary
import FilterQuery.Fault
import FilterQuery.Json.Record
import FilterQuery.SortOrder
import FilterQuery.Text.Blank
import FilterQuery.Text.Pieces

/-!
Requests for an order of the rows: keys, and directions for them. Both can be one text with commas
or a list.
-/

namespace FilterQuery

namespace Text

/-- The entries between commas, trimmed; entries without a visible character are dropped. -/
def entries (text : String) : List String :=
  ((pieces ',' text).map trimmed).filter (· ≠ "")

end Text

inductive SortKey where
  /-- A name of the request, to be resolved to a schema name. -/
  | requested (name : String)
  /-- A schema name, used as it is. -/
  | declared (name : String)
  deriving DecidableEq, Repr

namespace SortKey

def resolve (names : PropertyMap) : SortKey → String
  | .requested name => names.resolve name
  | .declared name => name

end SortKey

inductive SortRequest where
  | unordered
  | joined (names : String)
  | listed (keys : List SortKey)
  deriving DecidableEq, Repr

namespace SortRequest

-- The names of a list stand as given; only the entries of one text are trimmed.
def keys : SortRequest → List SortKey
  | .unordered => []
  | .joined names => (Text.entries names).map .requested
  | .listed keys => keys

def ofJson? : Json → Option SortRequest
  | .null => some .unordered
  | .text names => some (.joined names)
  | .list items => (items.mapM Json.text?).map fun names => .listed (names.map .requested)
  | _ => none

end SortRequest

inductive DirectionRequest where
  | every (descending : Bool)
  | joined (tokens : String)
  | listed (flags : List Bool)
  deriving DecidableEq, Repr

namespace DirectionRequest

def flag? (token : String) : Option Bool :=
  let lower := String.ofList (token.toList.map Char.toLower)
  if lower ∈ ["true", "t", "yes", "y", "1", "desc"] then some true
  else if lower ∈ ["false", "f", "no", "n", "0", "asc"] then some false
  else none

def readFlag (token : String) : Except Fault Bool :=
  match flag? token with
  | some flag => .ok flag
  | none => .error (.invalidValue "is_desc" "order" token
      "a boolean token (true/false, yes/no, 1/0, desc/asc)")

/-- The flags of a request. A single one is repeated for all keys; others are as many as they
are. -/
def flags (request : DirectionRequest) (keyCount : Nat) : Except Fault (List Bool) :=
  match request with
  | .every descending => .ok (List.replicate keyCount descending)
  | .joined tokens => (Text.entries tokens).mapM readFlag
  | .listed flags => .ok flags

def truth? : Json → Option Bool
  | .truth value => some value
  | _ => none

def ofJson? : Json → Option DirectionRequest
  | .truth value => some (.every value)
  | .text tokens => some (.joined tokens)
  | .list items => (items.mapM truth?).map .listed
  | _ => none

end DirectionRequest

end FilterQuery
