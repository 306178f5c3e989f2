import FilterQuery.Binary64.Shortest

/-!
How a finite number is written: its shortest digits, placed by a style. Two styles are in use, one
for documents and one for messages.
-/

namespace FilterQuery

structure NumberStyle where
  tie : Tie
  /-- The powers of ten of the first digit that are written without an exponent. -/
  isPositional : Int → Bool
  /-- What follows a number without fraction when it is written without an exponent. -/
  wholeMark : String

-- Documents keep a fraction on every number and an exponent on very large and very small ones.
def NumberStyle.document : NumberStyle where
  tie := .even
  isPositional power := -5 ≤ power && power < 16
  wholeMark := ".0"

-- Messages never use an exponent, and write a whole number without a point.
def NumberStyle.message : NumberStyle where
  tie := .up
  isPositional _ := true
  wholeMark := ""

namespace NumberStyle

-- `point` counts the digits before the point; it is negative when zeros stand between the point and
-- them.
def positional (style : NumberStyle) (digits : List Char) (point : Int) : List Char :=
  if point ≤ 0 then
    ['0', '.'] ++ List.replicate (-point).toNat '0' ++ digits
  else if digits.length ≤ point.toNat then
    digits ++ List.replicate (point.toNat - digits.length) '0' ++ style.wholeMark.toList
  else
    digits.take point.toNat ++ '.' :: digits.drop point.toNat

def scientific (digits : List Char) (power : Int) : List Char :=
  let fraction := digits.drop 1
  digits.take 1 ++ (if fraction.isEmpty then [] else '.' :: fraction) ++
    ['e', if power < 0 then '-' else '+'] ++ Nat.toDigits 10 power.natAbs

def unsigned (style : NumberStyle) (magnitude : Nat) : List Char :=
  if magnitude = 0 then '0' :: style.wholeMark.toList
  else
    let decimal := Binary64.shortest style.tie magnitude
    let written := Nat.toDigits 10 decimal.digits
    let digits := (written.reverse.dropWhile (· == '0')).reverse
    let point := decimal.exponent + written.length
    if style.isPositional (point - 1) then style.positional digits point
    else scientific digits (point - 1)

-- Zero keeps its sign.
def write (style : NumberStyle) (number : Binary64) : List Char :=
  (if number.isNegative then ['-'] else []) ++ style.unsigned number.magnitude

end NumberStyle

end FilterQuery
