import FilterQuery.Json
import FilterQuery.Binary64.Written
import FilterQuery.Text.Digits

/-!
JSON values as text, without spaces. Inside quotes only the quote, the backslash and control
characters below the space are escaped.
-/

namespace FilterQuery.Json

def hexDigit (value : Nat) : Char :=
  Nat.digitChar value

def printedChar (char : Char) : List Char :=
  if char = '"' then ['\\', '"']
  else if char = '\\' then ['\\', '\\']
  else if char = '\x08' then ['\\', 'b']
  else if char = '\x0c' then ['\\', 'f']
  else if char = '\n' then ['\\', 'n']
  else if char = '\r' then ['\\', 'r']
  else if char = '\t' then ['\\', 't']
  else if char < ' ' then
    ['\\', 'u', '0', '0', hexDigit (char.toNat / 16), hexDigit (char.toNat % 16)]
  else [char]

def printedText (text : String) : List Char :=
  '"' :: text.toList.flatMap printedChar ++ ['"']

-- A float that is no finite number has no JSON form; null stands in for it.
def printedFloat (number : Binary64) : List Char :=
  if number.isFinite then NumberStyle.document.write number else ['n', 'u', 'l', 'l']

mutual

def printed : Json → List Char
  | .null => ['n', 'u', 'l', 'l']
  | .truth true => ['t', 'r', 'u', 'e']
  | .truth false => ['f', 'a', 'l', 's', 'e']
  | .integer value => Text.integer value
  | .float value => printedFloat value
  | .text value => printedText value
  | .list [] => ['[', ']']
  | .list (item :: rest) => '[' :: item.printed ++ printedItems rest
  | .object [] => ['\x7b', '\x7d']
  | .object ((key, value) :: rest) =>
      '\x7b' :: printedText key ++ ':' :: value.printed ++ printedMembers rest

def printedItems : List Json → List Char
  | [] => [']']
  | item :: rest => ',' :: item.printed ++ printedItems rest

def printedMembers : List (String × Json) → List Char
  | [] => ['\x7d']
  | (key, value) :: rest =>
      ',' :: printedText key ++ ':' :: value.printed ++ printedMembers rest

end

def print (value : Json) : String :=
  String.ofList value.printed

end FilterQuery.Json
