import FilterQuery.Dictionary

/-!
Environment variables, and references to them in text. A reference is a name of at least one
character between `${` and the next closing brace. One whose variable is not set stays as it is, and
what takes the place of a reference is not searched for more.
-/

namespace FilterQuery

structure Environment where
  held : Dictionary String
  deriving Repr

namespace Environment

def empty : Environment := ⟨.empty⟩

def value? (environment : Environment) (name : String) : Option String :=
  environment.held.find? name

def set (environment : Environment) (name value : String) : Environment :=
  ⟨environment.held.insert name value⟩

def reference (name : List Char) : List Char :=
  '$' :: '\x7b' :: name ++ ['\x7d']

-- Nothing between the braces is no name, and the three characters stay.
def replacement (environment : Environment) (name : List Char) : List Char :=
  match environment.value? (String.ofList name) with
  | some value => if name.isEmpty then reference name else value.toList
  | none => reference name

mutual

def expand (environment : Environment) : List Char → List Char
  | [] => []
  | '$' :: '\x7b' :: rest => environment.expandName [] rest
  | char :: rest => char :: environment.expand rest

-- The name so far is reversed. Text that ends before the brace holds no reference, also not a later
-- one.
def expandName (environment : Environment) (name : List Char) : List Char → List Char
  | [] => '$' :: '\x7b' :: name.reverse
  | '\x7d' :: rest => environment.replacement name.reverse ++ environment.expand rest
  | char :: rest => environment.expandName (char :: name) rest

end

def expandText (environment : Environment) (text : String) : String :=
  String.ofList (environment.expand text.toList)

end Environment

end FilterQuery
