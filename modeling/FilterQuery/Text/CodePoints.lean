/-!
Sets of code points written as closed ranges. The tables that use them are data of the Unicode
standard.
-/

namespace FilterQuery.Text

/-- Both ends belong to the range. -/
structure CodeRange where
  first : Nat
  last : Nat
  deriving DecidableEq, Repr

namespace CodeRange

def holds (range : CodeRange) (code : Nat) : Bool :=
  range.first ≤ code && code ≤ range.last

end CodeRange

-- Ranges are kept as written in the standard; the tables hold a few hundred, so a scan is enough.
def covered (ranges : List CodeRange) (char : Char) : Bool :=
  ranges.any (·.holds char.toNat)

end FilterQuery.Text
