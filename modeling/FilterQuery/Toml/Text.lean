import FilterQuery.Text.Digits

/-!
The characters of a TOML document: lines, comments, and texts between quotes.
-/

namespace FilterQuery.Toml

/-- Makes every line end in a line feed. A carriage return anywhere else is no part of a
document. -/
def unifyLines? : List Char → Option (List Char)
  | [] => some []
  | '\r' :: '\n' :: rest => (unifyLines? rest).map ('\n' :: ·)
  | char :: rest => if char = '\r' then none else (unifyLines? rest).map (char :: ·)

def isSpace (char : Char) : Bool :=
  char == ' ' || char == '\t'

def skipSpaces (text : List Char) : List Char :=
  text.dropWhile isSpace

-- Of the control characters only the tab may stand as it is.
def isVisible (char : Char) : Bool :=
  char == '\t' || (' ' ≤ char && char ≤ '~') || 0x80 ≤ char.toNat

def skipComment : List Char → List Char
  | '#' :: rest => rest.dropWhile isVisible
  | text => text

/-- What follows the end of a line that holds nothing more but spaces and a comment. -/
def endLine? (text : List Char) : Option (List Char) :=
  match skipComment (skipSpaces text) with
  | [] => some []
  | '\n' :: rest => some rest
  | _ => none

def scalarValue? (code : Nat) : Option Char :=
  if code < 0xD800 ∨ (0xE000 ≤ code ∧ code < 0x110000) then some (Char.ofNat code) else none

def hexChar? (digits : List Char) : Option Char :=
  (Text.hexNumber? digits).bind scalarValue?

def plainEscape? : Char → Option Char
  | '"' => some '"'
  | '\\' => some '\\'
  | 'b' => some '\x08'
  | 'f' => some '\x0c'
  | 'n' => some '\n'
  | 'r' => some '\r'
  | 't' => some '\t'
  | _ => none

def basicText? : List Char → Option (List Char × List Char)
  | [] => none
  | '"' :: rest => some ([], rest)
  | '\\' :: 'u' :: a :: b :: c :: d :: rest => do
      let char ← hexChar? [a, b, c, d]
      let (text, rest) ← basicText? rest
      some (char :: text, rest)
  | '\\' :: 'U' :: a :: b :: c :: d :: e :: f :: g :: h :: rest => do
      let char ← hexChar? [a, b, c, d, e, f, g, h]
      let (text, rest) ← basicText? rest
      some (char :: text, rest)
  | '\\' :: escape :: rest => do
      let char ← plainEscape? escape
      let (text, rest) ← basicText? rest
      some (char :: text, rest)
  | char :: rest =>
      if isVisible char then do
        let (text, rest) ← basicText? rest
        some (char :: text, rest)
      else none

def literalText? : List Char → Option (List Char × List Char)
  | [] => none
  | '\'' :: rest => some ([], rest)
  | char :: rest =>
      if isVisible char then do
        let (text, rest) ← literalText? rest
        some (char :: text, rest)
      else none

/-- Where a reader of lines stands after a backslash that ends a line. -/
inductive Margin where
  | inText
  | beforeLineEnd
  | beforeText
  deriving DecidableEq, Repr

/-- The text up to three double quotes. Up to two more quotes belong to the text. A backslash at the
end of a line takes away all blanks and line ends up to the next text. -/
def basicLines? : Margin → List Char → Option (List Char × List Char)
  | _, [] => none
  | .beforeLineEnd, char :: rest =>
      if isSpace char then basicLines? .beforeLineEnd rest
      else if char = '\n' then basicLines? .beforeText rest
      else none
  | .beforeText, ' ' :: rest => basicLines? .beforeText rest
  | .beforeText, '\t' :: rest => basicLines? .beforeText rest
  | .beforeText, '\n' :: rest => basicLines? .beforeText rest
  | _, '"' :: '"' :: '"' :: '"' :: '"' :: rest => some (['"', '"'], rest)
  | _, '"' :: '"' :: '"' :: '"' :: rest => some (['"'], rest)
  | _, '"' :: '"' :: '"' :: rest => some ([], rest)
  | _, '\\' :: 'u' :: a :: b :: c :: d :: rest => do
      let char ← hexChar? [a, b, c, d]
      let (text, rest) ← basicLines? .inText rest
      some (char :: text, rest)
  | _, '\\' :: 'U' :: a :: b :: c :: d :: e :: f :: g :: h :: rest => do
      let char ← hexChar? [a, b, c, d, e, f, g, h]
      let (text, rest) ← basicLines? .inText rest
      some (char :: text, rest)
  | _, '\\' :: escape :: rest =>
      if isSpace escape then basicLines? .beforeLineEnd rest
      else if escape = '\n' then basicLines? .beforeText rest
      else do
        let char ← plainEscape? escape
        let (text, rest) ← basicLines? .inText rest
        some (char :: text, rest)
  | _, char :: rest =>
      if isVisible char ∨ char = '\n' then do
        let (text, rest) ← basicLines? .inText rest
        some (char :: text, rest)
      else none

/-- The text up to three single quotes, with up to two more as part of it. -/
def literalLines? : List Char → Option (List Char × List Char)
  | [] => none
  | '\'' :: '\'' :: '\'' :: '\'' :: '\'' :: rest => some (['\'', '\''], rest)
  | '\'' :: '\'' :: '\'' :: '\'' :: rest => some (['\''], rest)
  | '\'' :: '\'' :: '\'' :: rest => some ([], rest)
  | char :: rest =>
      if isVisible char ∨ char = '\n' then do
        let (text, rest) ← literalLines? rest
        some (char :: text, rest)
      else none

-- A line end right after the opening quotes is not part of the text.
def skipFirstLineEnd : List Char → List Char
  | '\n' :: rest => rest
  | text => text

def quotedText? : List Char → Option (List Char × List Char)
  | '"' :: '"' :: '"' :: rest => basicLines? .inText (skipFirstLineEnd rest)
  | '"' :: rest => basicText? rest
  | '\'' :: '\'' :: '\'' :: rest => literalLines? (skipFirstLineEnd rest)
  | '\'' :: rest => literalText? rest
  | _ => none

end FilterQuery.Toml
