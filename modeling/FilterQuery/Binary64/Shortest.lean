import FilterQuery.Binary64

/-!
The shortest decimal that reads back as a given finite number. With a given count of digits only the
two neighbours of the number on that decimal grid can be the answer: if any point of the grid reads
back, so does one of them. Main statement: the answer reads back.
-/

namespace FilterQuery.Binary64

-- How many places the point moves right before the number reaches one. The bound is never met: the
-- smallest number needs 324 places.
def placesBelowOne : Nat → Nat → Nat
  | 0, _ => 0
  | bound + 1, count =>
      if Nat.pow 2 unitPlaces ≤ count then 0 else placesBelowOne bound (count * 10) + 1

/-- The power of ten just above the number: `10 ^ (p - 1) ≤ number < 10 ^ p`. -/
def decimalPoint (magnitude : Nat) : Int :=
  let count := units magnitude
  let whole := count / Nat.pow 2 unitPlaces
  if whole = 0 then 1 - (placesBelowOne 400 count : Int)
  else (Nat.toDigits 10 whole).length

def readsBack (magnitude : Nat) (decimal : Decimal) : Bool :=
  decimal.magnitude = magnitude

/-- A number as a fraction of a power of ten, the last place of the decimals that have it for their
exponent. -/
def onGrid (magnitude : Nat) (exponent : Int) : Nat × Nat :=
  if 0 ≤ exponent then (units magnitude, Nat.pow 2 unitPlaces * Nat.pow 10 exponent.toNat)
  else (units magnitude * Nat.pow 10 (-exponent).toNat, Nat.pow 2 unitPlaces)

-- The nearer neighbour comes first. It can fail to read back where the other does not, since the
-- numbers lie closer together below a power of two than above it.
def neighbours (tie : Tie) (magnitude count : Nat) : List Decimal :=
  let exponent := decimalPoint magnitude - count
  let grid := onGrid magnitude exponent
  [roundedQuotient tie grid.1 grid.2, grid.1 / grid.2, grid.1 / grid.2 + 1].map
    (Decimal.mk · exponent)

/-- Every digit of the number: a unit has as many decimal places as binary ones. -/
def exactDecimal (magnitude : Nat) : Decimal :=
  ⟨units magnitude * Nat.pow 5 unitPlaces, -unitPlaces⟩

def fewestDigits? (tie : Tie) (magnitude : Nat) : Option Decimal :=
  (List.range 17).findSome? fun below =>
    (neighbours tie magnitude (below + 1)).find? (readsBack magnitude)

-- Seventeen digits always suffice. The full expansion stands behind them so that the answer reads
-- back whether or not one knows that.
def shortest (tie : Tie) (magnitude : Nat) : Decimal :=
  (fewestDigits? tie magnitude).getD (exactDecimal magnitude)

theorem magnitude_of_fewestDigits {tie : Tie} {magnitude : Nat} {decimal : Decimal}
    (found : fewestDigits? tie magnitude = some decimal) : decimal.magnitude = magnitude := by
  obtain ⟨below, _, onGrid⟩ := List.exists_of_findSome?_eq_some found
  have reads : readsBack magnitude decimal = true := List.find?_some onGrid
  exact of_decide_eq_true reads

theorem nearest_expansion (magnitude places : Nat) :
    nearest (units magnitude * Nat.pow 5 places * Nat.pow 2 places) (Nat.pow 10 places) =
      magnitude := by
  simp only [Nat.pow_eq]
  rw [Nat.mul_assoc, ← Nat.mul_pow, nearest_units _ _ (Nat.pow_pos (by decide))]

theorem magnitude_exactDecimal (magnitude : Nat) :
    (exactDecimal magnitude).magnitude = magnitude := by
  have positive : 0 < unitPlaces := by decide
  simp only [Decimal.magnitude, exactDecimal, Decimal.unitFraction_neg _ positive,
    nearest_expansion]

theorem magnitude_shortest (tie : Tie) (magnitude : Nat) :
    (shortest tie magnitude).magnitude = magnitude := by
  unfold shortest
  cases found : fewestDigits? tie magnitude with
  | none => exact magnitude_exactDecimal magnitude
  | some decimal => exact magnitude_of_fewestDigits found

end FilterQuery.Binary64
