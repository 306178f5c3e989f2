import FilterQuery.Json.Number
import FilterQuery.Json.Written

/-!
From a JSON text to the value it denotes. A number too large for a float and an escape that stands
for no character denote nothing, and neither does a text that holds them.
-/

namespace FilterQuery.Json

/-- Two code units in the surrogate ranges make one character; one alone makes none. -/
def ofMarks? : List Mark → Option (List Char)
  | [] => some []
  | .char char :: rest => (ofMarks? rest).map (char :: ·)
  | .codeUnit high :: .codeUnit low :: rest =>
      if 0xD800 ≤ high ∧ high < 0xDC00 then
        if 0xDC00 ≤ low ∧ low < 0xE000 then
          let code := 0x10000 + (high - 0xD800) * 0x400 + (low - 0xDC00)
          (ofMarks? rest).map (Char.ofNat code :: ·)
        else none
      else if 0xDC00 ≤ high ∧ high < 0xE000 then none
      else (ofMarks? (.codeUnit low :: rest)).map (Char.ofNat high :: ·)
  | .codeUnit code :: rest =>
      if 0xD800 ≤ code ∧ code < 0xE000 then none
      else (ofMarks? rest).map (Char.ofNat code :: ·)

def textOf? (marks : List Mark) : Option String :=
  (ofMarks? marks).map String.ofList

def Scalar.value? : Scalar → Option Json
  | .null => some .null
  | .truth value => some (.truth value)
  | .number numeral => numeral.value?
  | .text marks => (textOf? marks).map .text

namespace Written

mutual

/-- The value that a tree denotes; members stay as written, repeated keys included. -/
def denoted? : Written → Option Json
  | .scalar leaf => leaf.value?
  | .list items => (denotedItems? items).map .list
  | .object members => (denotedMembers? members).map .object

def denotedItems? : List Written → Option (List Json)
  | [] => some []
  | item :: rest => do
      let first ← item.denoted?
      let others ← denotedItems? rest
      some (first :: others)

def denotedMembers? : List (List Mark × Written) → Option (List (String × Json))
  | [] => some []
  | (key, value) :: rest => do
      let key ← textOf? key
      let first ← value.denoted?
      let others ← denotedMembers? rest
      some ((key, first) :: others)

end

def maxNesting : Nat := 127

def toJson? (tree : Written) : Option Json :=
  if tree.nesting ≤ maxNesting then tree.denoted? else none

-- A member that nobody asks for need only be well formed. Its numbers may be too large, its escapes
-- may stand for no character, and it may nest without limit.
def keepMembers (names : List String) :
    List (List Mark × Written) → Option (List (List Mark × Written))
  | [] => some []
  | (key, value) :: rest => do
      let name ← textOf? key
      let others ← keepMembers names rest
      some (if name ∈ names then (key, value) :: others else others)

def recordToJson? (names : List String) : Written → Option Json
  | .object members => do
      let kept ← keepMembers names members
      (Written.object kept).toJson?
  | other => other.toJson?

end Written

def read? (text : String) : Option Json := do
  let tree ← Written.read? text
  tree.toJson?

def readRecord? (names : List String) (text : String) : Option Json := do
  let tree ← Written.read? text
  tree.recordToJson? names

end FilterQuery.Json
