import FilterQuery.Json.Lexeme

/-!
The tree of a JSON text, with its scalars and keys as written. The grammar of the whole text is
checked here; what the scalars denote, and how deep the tree may be, is not.
-/

namespace FilterQuery.Json

inductive Written where
  | scalar (scalar : Scalar)
  | list (items : List Written)
  | object (members : List (List Mark × Written))
  deriving Repr

namespace Written

-- The bound falls by one with every lexeme taken, so the number of lexemes is bound enough.
mutual

def value : Nat → List Lexeme → Option (Written × List Lexeme)
  | 0, _ => none
  | bound + 1, lexemes =>
      match lexemes with
      | .scalar leaf :: rest => some (.scalar leaf, rest)
      | .openList :: .closeList :: rest => some (.list [], rest)
      | .openList :: rest => do
          let (first, rest) ← value bound rest
          let (others, rest) ← moreItems bound rest
          some (.list (first :: others), rest)
      | .openObject :: .closeObject :: rest => some (.object [], rest)
      | .openObject :: .scalar (.text key) :: .colon :: rest => do
          let (first, rest) ← value bound rest
          let (others, rest) ← moreMembers bound rest
          some (.object ((key, first) :: others), rest)
      | _ => none

def moreItems : Nat → List Lexeme → Option (List Written × List Lexeme)
  | 0, _ => none
  | bound + 1, lexemes =>
      match lexemes with
      | .closeList :: rest => some ([], rest)
      | .comma :: rest => do
          let (item, rest) ← value bound rest
          let (others, rest) ← moreItems bound rest
          some (item :: others, rest)
      | _ => none

def moreMembers : Nat → List Lexeme → Option (List (List Mark × Written) × List Lexeme)
  | 0, _ => none
  | bound + 1, lexemes =>
      match lexemes with
      | .closeObject :: rest => some ([], rest)
      | .comma :: .scalar (.text key) :: .colon :: rest => do
          let (value, rest) ← value bound rest
          let (others, rest) ← moreMembers bound rest
          some ((key, value) :: others, rest)
      | _ => none

end

def read? (text : String) : Option Written := do
  let lexemes ← lexemes text.toList
  match ← value lexemes.length lexemes with
  | (tree, []) => some tree
  | (_, _ :: _) => none

mutual

/-- How many lists and objects enclose the innermost scalar, counting an empty one for itself. -/
def nesting : Written → Nat
  | .scalar _ => 0
  | .list items => nestingOfItems items + 1
  | .object members => nestingOfMembers members + 1

def nestingOfItems : List Written → Nat
  | [] => 0
  | item :: rest => max item.nesting (nestingOfItems rest)

def nestingOfMembers : List (List Mark × Written) → Nat
  | [] => 0
  | (_, value) :: rest => max value.nesting (nestingOfMembers rest)

end

end Written

end FilterQuery.Json
