import FilterQuery.Toml.Draft
import FilterQuery.Toml.Text
import FilterQuery.Toml.Word

/-!
TOML documents: lines that are entries or headers of tables, and the tables they make. Lists of
tables are refused, for nothing that is configured is one.
-/

namespace FilterQuery.Toml

def isBareKeyChar (char : Char) : Bool :=
  char.isAlphanum || char == '-' || char == '_'

def simpleKey? (text : List Char) : Option (String × List Char) :=
  match text with
  | '"' :: rest => (basicText? rest).map fun (name, rest) => (String.ofList name, rest)
  | '\'' :: rest => (literalText? rest).map fun (name, rest) => (String.ofList name, rest)
  | _ =>
      let (name, rest) := text.span isBareKeyChar
      if name.isEmpty then none else some (String.ofList name, rest)

def dottedKey? : Nat → List Char → Option (List String × String × List Char)
  | 0, _ => none
  | bound + 1, text => do
      let (name, rest) ← simpleKey? (skipSpaces text)
      match skipSpaces rest with
      | '.' :: rest =>
          let (path, last, rest) ← dottedKey? bound rest
          some (name :: path, last, rest)
      | rest => some ([], name, rest)

def skipLines : Nat → List Char → List Char
  | 0, text => text
  | bound + 1, text =>
      match skipSpaces text with
      | '\n' :: rest => skipLines bound rest
      | '#' :: rest => skipLines bound (skipComment ('#' :: rest))
      | text => text

-- Every call takes at least one character, so the length of the document is bound enough.
mutual

def value? : Nat → List Char → Option (Toml × List Char)
  | 0, _ => none
  | bound + 1, text =>
      match text with
      | '[' :: rest => do
          let (items, rest) ← items? bound rest
          some (.array items, rest)
      | '\x7b' :: rest =>
          match skipSpaces rest with
          | '\x7d' :: rest => some (.table [], rest)
          | _ => do
              let (entries, rest) ← entries? bound [] rest
              some (.table (Draft.entriesToToml entries), rest)
      | '"' :: _ =>
          (quotedText? text).map fun (value, rest) => (.string (String.ofList value), rest)
      | '\'' :: _ =>
          (quotedText? text).map fun (value, rest) => (.string (String.ofList value), rest)
      | _ => do
          let (word, rest) := takeWord text
          let value ← ofWord? word
          some (value, rest)

/-- The items of a list up to its end; a comma may follow the last one. -/
def items? : Nat → List Char → Option (List Toml × List Char)
  | 0, _ => none
  | bound + 1, text =>
      match skipLines bound text with
      | ']' :: rest => some ([], rest)
      | text => do
          let (item, rest) ← value? bound text
          match skipLines bound rest with
          | ',' :: rest => do
              let (others, rest) ← items? bound rest
              some (item :: others, rest)
          | ']' :: rest => some ([item], rest)
          | _ => none

/-- The entries of a table in braces, all on one line and without a comma after the last. -/
def entries? : Nat → Entries → List Char → Option (Entries × List Char)
  | 0, _, _ => none
  | bound + 1, known, text => do
      let (path, name, rest) ← dottedKey? bound text
      match rest with
      | '=' :: rest => do
          let (value, rest) ← value? bound (skipSpaces rest)
          let known ← Draft.addEntry path name value .header known
          match skipSpaces rest with
          | ',' :: rest => entries? bound known rest
          | '\x7d' :: rest => some (known, rest)
          | _ => none
      | _ => none

end

/-- The document so far, and the path of the table that entries now go to. -/
structure Progress where
  root : Entries
  current : List String

namespace Progress

def addEntry (progress : Progress) (path : List String) (name : String) (value : Toml) :
    Option Progress := do
  let root ← Draft.within .headerInside (Draft.addEntry path name value) progress.current
    .header progress.root
  some { progress with root := root }

def addHeader (progress : Progress) (path : List String) (name : String) : Option Progress := do
  let root ← Draft.addHeader path name progress.root
  some ⟨root, path ++ [name]⟩

end Progress

def lines? : Nat → Progress → List Char → Option Progress
  | 0, _, _ => none
  | bound + 1, progress, text =>
      match skipSpaces text with
      | [] => some progress
      | '\n' :: rest => lines? bound progress rest
      | '#' :: rest => do
          let rest ← endLine? ('#' :: rest)
          lines? bound progress rest
      | '[' :: rest => do
          let (path, name, rest) ← dottedKey? bound rest
          match rest with
          | ']' :: rest => do
              let rest ← endLine? rest
              let progress ← progress.addHeader path name
              lines? bound progress rest
          | _ => none
      | text => do
          let (path, name, rest) ← dottedKey? bound text
          match rest with
          | '=' :: rest => do
              let (value, rest) ← value? bound (skipSpaces rest)
              let rest ← endLine? rest
              let progress ← progress.addEntry path name value
              lines? bound progress rest
          | _ => none

-- A byte order mark at the very start belongs to the encoding, not to the document.
def skipMark : List Char → List Char
  | '\ufeff' :: rest => rest
  | text => text

def read? (text : String) : Option (List (String × Toml)) := do
  let text ← unifyLines? (skipMark text.toList)
  let progress ← lines? (text.length + 1) ⟨[], []⟩ text
  some (Draft.entriesToToml progress.root)

end FilterQuery.Toml
