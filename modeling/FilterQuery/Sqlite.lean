import FilterQuery.Fault.Report
import FilterQuery.Text.Utf8
import FilterQuery.Value

/-!
Values on their way to an SQLite store and back. SQLite has no dates; they are bound as ISO text,
which orders like time. Anything with a structure is bound as its JSON text.
-/

namespace FilterQuery.Sqlite

inductive Cell where
  | null
  | integer (value : Int)
  | real (value : Binary64)
  | text (value : String)
  deriving DecidableEq, Repr

-- A date-time is bound with a space between date and time, the form that the store's own functions
-- use.
def bind : Value → Cell
  | .null => .null
  | .truth value => .integer (if value then 1 else 0)
  | .integer value => .integer value
  | .float value => .real value
  | .text value => .text value
  | .date value => .text (String.ofList value.write)
  | .dateTime value => .text (String.ofList (value.write ' '))
  | .document value => .text value.print
  | .list items => .text (Value.list items).toJson.print

/-- A cell as the store gives it: texts and blobs are bytes. -/
inductive Stored where
  | null
  | integer (value : Int)
  | real (value : Binary64)
  | text (bytes : List UInt8)
  | blob (bytes : List UInt8)
  deriving DecidableEq, Repr

/-- The JSON value of a cell. A blob that is text becomes a text, any other the list of its
bytes. -/
def Stored.toJson : Stored → Json
  | .null => .null
  | .integer value => .integer value
  | .real value => if value.isFinite then .float value else .null
  | .text bytes => .text (Text.utf8Lenient bytes)
  | .blob bytes =>
      match Text.utf8Strict? bytes with
      | some content => .text content
      | none => .list (bytes.map fun byte => .integer byte.toNat)

inductive StoreFault where
  | connection (message : String)
  | query (message : String)
  | typeConversion (message : String)
  deriving DecidableEq, Repr

namespace StoreFault

def text : StoreFault → String
  | .connection message => "Connection error: " ++ message
  | .query message => "Query error: " ++ message
  | .typeConversion message => "Type conversion error: " ++ message

def report (fault : StoreFault) : Report :=
  { (Fault.database fault.text).report with cause := some fault.text }

end StoreFault

end FilterQuery.Sqlite
