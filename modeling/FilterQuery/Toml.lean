/-!
The values of a TOML document.
-/

namespace FilterQuery

inductive Toml where
  | string (value : String)
  | boolean (value : Bool)
  /-- A number. Its form is checked and its value is not kept: nothing that is configured is a
  number. -/
  | number
  /-- A date, a time or both, in the one spelling that all its spellings share. -/
  | moment (written : String)
  | array (items : List Toml)
  | table (entries : List (String × Toml))
  deriving Repr

end FilterQuery
