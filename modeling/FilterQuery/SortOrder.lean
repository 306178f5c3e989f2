/-!
The direction of an ordering.
-/

namespace FilterQuery

inductive SortOrder where
  | ascending
  | descending
  deriving DecidableEq, Repr

namespace SortOrder

def ofDescending (descending : Bool) : SortOrder :=
  if descending then .descending else .ascending

def keyword : SortOrder → String
  | .ascending => "ASC"
  | .descending => "DESC"

def name : SortOrder → String
  | .ascending => "Asc"
  | .descending => "Desc"

def ofName? (name : String) : Option SortOrder :=
  if name = "Asc" then some .ascending
  else if name = "Desc" then some .descending
  else none

end SortOrder

end FilterQuery
