import FilterQuery.Binary64

/-!
Products and quotients of magnitudes: the exact result, rounded once. A decimal can be computed with
them from its digits and a power of ten, in steps that each round; the outcome may lie beside the
nearest number.
-/

namespace FilterQuery

namespace Binary64

def rounded (number : Nat) : Nat :=
  nearest (number * Nat.pow 2 unitPlaces) 1

def product (left right : Nat) : Nat :=
  nearest (units left * units right) (Nat.pow 2 unitPlaces)

def quotient (left right : Nat) : Nat :=
  nearest (units left * Nat.pow 2 unitPlaces) (units right)

def powerOfTen (exponent : Nat) : Nat :=
  rounded (Nat.pow 10 exponent)

def maxPower : Nat := 308

theorem rounded_eq {number magnitude : Nat}
    (exact : units magnitude = number * Nat.pow 2 unitPlaces) :
    rounded number = magnitude := by
  have found := nearest_units magnitude 1 (by decide)
  rwa [Nat.mul_one, exact] at found

end Binary64

namespace Decimal

open Binary64

/-- The magnitude computed from the digits, which fit in 64 bits, by multiplying or dividing with
powers of ten. A division by more than the greatest finite power takes two steps, and after a third
nothing would be left. -/
def computed (decimal : Decimal) : Nat :=
  let start := rounded decimal.digits
  let places := decimal.exponent.natAbs
  if decimal.digits = 0 then 0
  else if 0 ≤ decimal.exponent then
    if places ≤ maxPower then product start (powerOfTen places) else infinite
  else if places ≤ maxPower then quotient start (powerOfTen places)
  else if places ≤ 2 * maxPower then
    quotient (quotient start (powerOfTen maxPower)) (powerOfTen (places - maxPower))
  else 0

end Decimal

end FilterQuery
