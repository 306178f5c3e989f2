import FilterQuery.Json
import FilterQuery.Text.Digits

/-!
The lexemes of a JSON text. A lexeme keeps what was written: a number keeps its digits and a text
keeps its escapes, because whether they denote anything is asked only of the parts of a document
that are used.
-/

namespace FilterQuery.Json

/-- One unit of a text between quotes: a character, or an escape that gives a 16-bit code unit. -/
inductive Mark where
  | char (char : Char)
  | codeUnit (code : Nat)
  deriving DecidableEq, Repr

/-- A number by its digits in front of the point and behind it, and the exponent if one is
written. -/
structure Numeral where
  negative : Bool
  whole : List Char
  fraction : List Char
  power : Option Int
  deriving DecidableEq, Repr

inductive Scalar where
  | null
  | truth (value : Bool)
  | number (numeral : Numeral)
  | text (marks : List Mark)
  deriving DecidableEq, Repr

inductive Lexeme where
  | scalar (scalar : Scalar)
  | openList
  | closeList
  | openObject
  | closeObject
  | comma
  | colon
  deriving DecidableEq, Repr

def plainEscape? : Char → Option Char
  | '"' => some '"'
  | '\\' => some '\\'
  | '/' => some '/'
  | 'b' => some '\x08'
  | 'f' => some '\x0c'
  | 'n' => some '\n'
  | 'r' => some '\r'
  | 't' => some '\t'
  | _ => none

/-- The marks up to the closing quote, and what follows it. A control character must be escaped. -/
def scanText : List Char → Option (List Mark × List Char)
  | [] => none
  | '"' :: rest => some ([], rest)
  | '\\' :: 'u' :: a :: b :: c :: d :: rest => do
      let code ← Text.hexNumber? [a, b, c, d]
      let (marks, rest) ← scanText rest
      some (.codeUnit code :: marks, rest)
  | '\\' :: escape :: rest => do
      let char ← plainEscape? escape
      let (marks, rest) ← scanText rest
      some (.char char :: marks, rest)
  | char :: rest =>
      if char < ' ' then none
      else do
        let (marks, rest) ← scanText rest
        some (.char char :: marks, rest)

def scanDigits? (text : List Char) : Option (List Char × List Char) :=
  match text.span Char.isDigit with
  | ([], _) => none
  | scanned => some scanned

def scanFraction : List Char → Option (List Char × List Char)
  | '.' :: rest => scanDigits? rest
  | rest => some ([], rest)

def scanPower (text : List Char) : Option (Int × List Char) :=
  match text with
  | '-' :: rest =>
      (scanDigits? rest).map fun (digits, rest) => (-(Text.ofDigits digits : Int), rest)
  | '+' :: rest => (scanDigits? rest).map fun (digits, rest) => ((Text.ofDigits digits : Int), rest)
  | rest => (scanDigits? rest).map fun (digits, rest) => ((Text.ofDigits digits : Int), rest)

def scanExponent : List Char → Option (Option Int × List Char)
  | 'e' :: rest => (scanPower rest).map fun (power, rest) => (some power, rest)
  | 'E' :: rest => (scanPower rest).map fun (power, rest) => (some power, rest)
  | rest => some (none, rest)

/-- A number without its sign. The whole part has no leading zero. -/
def scanUnsigned (negative : Bool) (text : List Char) : Option (Numeral × List Char) := do
  let (whole, rest) ← scanDigits? text
  if whole.head? = some '0' ∧ 1 < whole.length then none
  else
    let (fraction, rest) ← scanFraction rest
    let (power, rest) ← scanExponent rest
    some (⟨negative, whole, fraction, power⟩, rest)

def scanNumeral : List Char → Option (Numeral × List Char)
  | '-' :: rest => scanUnsigned true rest
  | rest => scanUnsigned false rest

def word? : List Char → Option Scalar
  | ['n', 'u', 'l', 'l'] => some .null
  | ['t', 'r', 'u', 'e'] => some (.truth true)
  | ['f', 'a', 'l', 's', 'e'] => some (.truth false)
  | _ => none

def scan (first : Char) (rest : List Char) : Option (Lexeme × List Char) :=
  match first with
  | '[' => some (.openList, rest)
  | ']' => some (.closeList, rest)
  | '\x7b' => some (.openObject, rest)
  | '\x7d' => some (.closeObject, rest)
  | ',' => some (.comma, rest)
  | ':' => some (.colon, rest)
  | '"' => (scanText rest).map fun (marks, rest) => (.scalar (.text marks), rest)
  | _ =>
      if first.isAlpha then
        let (letters, rest) := rest.span Char.isAlpha
        (word? (first :: letters)).map fun scalar => (.scalar scalar, rest)
      else
        (scanNumeral (first :: rest)).map fun (numeral, rest) => (.scalar (.number numeral), rest)

def isSpace (char : Char) : Bool :=
  char == ' ' || char == '\t' || char == '\n' || char == '\r'

-- Every lexeme takes at least one character, so a bound of the length of the text is never met.
def lexemesWithin : Nat → List Char → Option (List Lexeme)
  | _, [] => some []
  | 0, _ :: _ => none
  | bound + 1, char :: rest =>
      if isSpace char then lexemesWithin bound rest
      else do
        let (lexeme, rest) ← scan char rest
        let lexemes ← lexemesWithin bound rest
        some (lexeme :: lexemes)

def lexemes (text : List Char) : Option (List Lexeme) :=
  lexemesWithin text.length text

end FilterQuery.Json
