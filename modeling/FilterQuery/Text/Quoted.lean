import FilterQuery.Text.Unprintable
import FilterQuery.Text.Extending

/-!
Text between double quotes for a message: what a reader could not see, or would see joined to its
neighbour, is written out as a code point. An apostrophe stands as it is.
-/

namespace FilterQuery.Text

/-- The code point in lower-case hexadecimal between braces, without leading zeros. -/
def codePoint (char : Char) : List Char :=
  ['\\', 'u', '\x7b'] ++ Nat.toDigits 16 char.toNat ++ ['\x7d']

def quotedChar (char : Char) : List Char :=
  if char = '\x00' then ['\\', '0']
  else if char = '\t' then ['\\', 't']
  else if char = '\r' then ['\\', 'r']
  else if char = '\n' then ['\\', 'n']
  else if char = '\\' then ['\\', '\\']
  else if char = '"' then ['\\', '"']
  else if isExtending char || !isPrintable char then codePoint char
  else [char]

def quoted (text : String) : String :=
  String.ofList ('"' :: text.toList.flatMap quotedChar ++ ['"'])

end FilterQuery.Text
