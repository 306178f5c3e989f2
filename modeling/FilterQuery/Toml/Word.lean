import FilterQuery.Calendar.Reader
import FilterQuery.Toml

/-!
The values of a TOML document that stand without quotes and brackets: truth values, numbers, dates
and times.
-/

namespace FilterQuery.Toml

/-- Digits in groups: an underscore stands between two digits. -/
def isGrouped (isDigit : Char → Bool) : List Char → Bool
  | [] => false
  | [only] => isDigit only
  | first :: '_' :: next :: rest =>
      isDigit first && isDigit next && isGrouped isDigit (next :: rest)
  | first :: rest => isDigit first && isGrouped isDigit rest

def withoutGroups (digits : List Char) : List Char :=
  digits.filter (· ≠ '_')

def isWhole (digits : List Char) : Bool :=
  isGrouped Char.isDigit digits && (digits.length == 1 || digits.head? != some '0')

def unsigned : List Char → List Char
  | '+' :: rest => rest
  | '-' :: rest => rest
  | text => text

def isInteger (word : List Char) : Bool :=
  let value := Text.ofDigits (withoutGroups (unsigned word))
  isWhole (unsigned word) &&
    (if word.head? = some '-' then value ≤ Nat.pow 2 63 else value < Nat.pow 2 63)

def digitIn (base : Nat) (char : Char) : Bool :=
  match Text.hexDigit? char with
  | some value => value < base
  | none => false

def valueIn (base : Nat) (digits : List Char) : Nat :=
  (withoutGroups digits).foldl (fun value char => base * value + (Text.hexDigit? char).getD 0) 0

def isIntegerIn (base : Nat) (digits : List Char) : Bool :=
  isGrouped (digitIn base) digits && valueIn base digits < Nat.pow 2 63

def isFloat (word : List Char) : Bool :=
  let (whole, rest) := (unsigned word).span fun char => char.isDigit || char == '_'
  let (fraction, power) := match rest with
    | '.' :: rest =>
        let (digits, rest) := rest.span fun char => char.isDigit || char == '_'
        (some digits, rest)
    | rest => (none, rest)
  let fractionFits := match fraction with
    | some digits => isGrouped Char.isDigit digits
    | none => true
  let powerFits := match power with
    | [] => fraction.isSome
    | mark :: digits => (mark == 'e' || mark == 'E') && isGrouped Char.isDigit (unsigned digits)
  isWhole whole && fractionFits && powerFits

def isNumber (word : List Char) : Bool :=
  match word with
  | '0' :: 'x' :: digits => isIntegerIn 16 digits
  | '0' :: 'o' :: digits => isIntegerIn 8 digits
  | '0' :: 'b' :: digits => isIntegerIn 2 digits
  | _ =>
      isInteger word || isFloat word ||
        unsigned word = ['i', 'n', 'f'] || unsigned word = ['n', 'a', 'n']

def fractionText (nanos : Nat) : List Char :=
  if nanos = 0 then []
  else '.' :: ((Text.padded 9 nanos).reverse.dropWhile (· == '0')).reverse

def offsetText? : List Char → Option (List Char)
  | [] => some []
  | ['Z'] => some ['Z']
  | ['z'] => some ['Z']
  | [sign, h1, h2, ':', m1, m2] => do
      let offset ← Offset.read? [sign, h1, h2, ':', m1, m2]
      let sign := if offset.minutes < 0 then '-' else '+'
      some (sign :: [h1, h2, ':', m1, m2])
  | _ => none

def timeText? (mayHaveOffset : Bool) : List Char → Option (List Char)
  | h1 :: h2 :: ':' :: m1 :: m2 :: ':' :: s1 :: s2 :: rest => do
      let hour ← Text.number? [h1, h2]
      let minute ← Text.number? [m1, m2]
      let second ← Text.number? [s1, s2]
      let (nanos, rest) ← Seconds.readFraction? rest
      let offset ← offsetText? rest
      if hour < 24 ∧ minute < 60 ∧ second ≤ 60 ∧ (mayHaveOffset ∨ offset.isEmpty) then
        some ([h1, h2, ':', m1, m2, ':', s1, s2] ++ fractionText nanos ++ offset)
      else none
  | _ => none

def momentText? (word : List Char) : Option (List Char) :=
  match Date.read? (word.take 10), word.drop 10 with
  | some date, [] => some date.write
  | some date, separator :: rest =>
      if separator = 'T' ∨ separator = 't' ∨ separator = ' ' then do
        let time ← timeText? true rest
        some (date.write ++ 'T' :: time)
      else none
  | none, _ => timeText? false word

def isWordChar (char : Char) : Bool :=
  char.isAlphanum || char == '+' || char == '-' || char == '_' || char == '.' || char == ':'

-- A space may stand between a date and a time, and nowhere else in a value without quotes.
def takeWord (text : List Char) : List Char × List Char :=
  let (word, rest) := text.span isWordChar
  match Date.read? word, rest with
  | some _, ' ' :: h1 :: h2 :: ':' :: more =>
      if h1.isDigit ∧ h2.isDigit then
        let (time, rest) := (h1 :: h2 :: ':' :: more).span isWordChar
        (word ++ ' ' :: time, rest)
      else (word, rest)
  | _, _ => (word, rest)

def ofWord? (word : List Char) : Option Toml :=
  if word = ['t', 'r', 'u', 'e'] then some (.boolean true)
  else if word = ['f', 'a', 'l', 's', 'e'] then some (.boolean false)
  else if isNumber word then some .number
  else (momentText? word).map fun written => .moment (String.ofList written)

end FilterQuery.Toml
