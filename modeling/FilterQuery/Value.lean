import FilterQuery.Calendar.Reader
import FilterQuery.Json.Printer
import FilterQuery.Text.Quoted

/-!
The values that conditions compare with. They come from JSON unchanged; coercion then reads dates
and date-times out of texts. What is neither stays the text it was.
-/

namespace FilterQuery

inductive Value where
  | null
  | truth (value : Bool)
  | integer (value : Int)
  | float (value : Binary64)
  | text (value : String)
  | date (value : Date)
  | dateTime (value : DateTime)
  /-- A JSON object, carried whole. -/
  | document (value : Json)
  | list (items : List Value)
  deriving Repr

namespace Value

def isInRange (number : Int) : Bool :=
  -Int.pow 2 63 ≤ number && number < Int.pow 2 63

mutual

/-- The value of a JSON value. An integer out of range is refused, and is itself the reason; what an
object holds is not looked at. -/
def ofJson : Json → Except Int Value
  | .null => .ok .null
  | .truth value => .ok (.truth value)
  | .integer value => if isInRange value then .ok (.integer value) else .error value
  | .float value => .ok (.float value)
  | .text value => .ok (.text value)
  | .list items => (ofItems items).map .list
  | .object members => .ok (.document (.object members))

def ofItems : List Json → Except Int (List Value)
  | [] => .ok []
  | item :: rest =>
      match ofJson item with
      | .error number => .error number
      | .ok first => (ofItems rest).map (first :: ·)

end

mutual

/-- The JSON form of a value; dates and date-times are texts there. -/
def toJson : Value → Json
  | .null => .null
  | .truth value => .truth value
  | .integer value => .integer value
  | .float value => .float value
  | .text value => .text value
  | .date value => .text (String.ofList value.write)
  | .dateTime value => .text (String.ofList (value.write 'T'))
  | .document value => value
  | .list items => .list (itemsToJson items)

def itemsToJson : List Value → List Json
  | [] => []
  | item :: rest => item.toJson :: itemsToJson rest

end

def isNull : Value → Bool
  | .null => true
  | _ => false

def isList : Value → Bool
  | .list _ => true
  | _ => false

def kind : Value → String
  | .null => "null"
  | .truth _ => "boolean"
  | .integer _ => "integer"
  | .float _ => "float"
  | .text _ => "string"
  | .date _ => "date"
  | .dateTime _ => "datetime"
  | .document _ => "object"
  | .list _ => "list"

def shownFloat (number : Binary64) : List Char :=
  if number.isNan then ['N', 'a', 'N']
  else if number.isFinite then NumberStyle.message.write number
  else if number.isNegative then ['-', 'i', 'n', 'f']
  else ['i', 'n', 'f']

mutual

def shownChars : Value → List Char
  | .null => ['n', 'u', 'l', 'l']
  | .truth true => ['t', 'r', 'u', 'e']
  | .truth false => ['f', 'a', 'l', 's', 'e']
  | .integer value => Text.integer value
  | .float value => shownFloat value
  | .text value => (Text.quoted value).toList
  | .date value => value.write
  | .dateTime value => value.write 'T'
  | .document value => value.printed
  | .list [] => ['[', ']']
  | .list (item :: rest) => '[' :: item.shownChars ++ shownItems rest

def shownItems : List Value → List Char
  | [] => [']']
  | item :: rest => ',' :: ' ' :: item.shownChars ++ shownItems rest

end

def shown (value : Value) : String :=
  String.ofList value.shownChars

mutual

def same : Value → Value → Bool
  | .null, .null => true
  | .truth left, .truth right => left == right
  | .integer left, .integer right => left == right
  | .float left, .float right => left.sameNumber right
  | .text left, .text right => left == right
  | .date left, .date right => left == right
  | .dateTime left, .dateTime right => left == right
  | .document left, .document right => left.same right
  | .list left, .list right => sameItems left right
  | _, _ => false

def sameItems : List Value → List Value → Bool
  | [], [] => true
  | left :: leftRest, right :: rightRest => left.same right && sameItems leftRest rightRest
  | _, _ => false

end

def temporal? (text : List Char) : Option Value :=
  (Date.read? text).map .date <|> (DateTime.read? text).map .dateTime

-- Only a text that is the whole value is read; a list keeps its texts.
def coerce : Value → Value
  | .text value => (temporal? value.toList).getD (.text value)
  | other => other

end Value

end FilterQuery
