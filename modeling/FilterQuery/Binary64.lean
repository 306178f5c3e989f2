/-!
Binary floating-point numbers of 64 bits, read from decimals and written as decimals by whole-number
arithmetic only. Counted in the smallest number above zero every finite number is a natural number,
and the bits below the sign, read as one number (the magnitude), grow with it; so rounding a decimal
is rounding a fraction of two naturals. Main statement: rounding gives back every number that is
given exactly.
-/

namespace FilterQuery

/-- The number `digits * 10 ^ exponent`. -/
structure Decimal where
  digits : Nat
  exponent : Int
  deriving DecidableEq, Repr

/-- The bits of a number: sign, eleven bits of exponent, fifty-two of fraction. -/
structure Binary64 where
  bits : UInt64
  deriving DecidableEq, Repr

/-- Which neighbour a value exactly between two of them goes to. -/
inductive Tie where
  | even
  | up
  deriving DecidableEq, Repr

def roundedQuotient (tie : Tie) (dividend divisor : Nat) : Nat :=
  let below := dividend / divisor
  let excess := 2 * (dividend % divisor)
  if excess < divisor then below
  else if divisor < excess then below + 1
  else match tie with
    | .even => below + below % 2
    | .up => below + 1

namespace Binary64

def magnitude (number : Binary64) : Nat :=
  number.bits.toNat % Nat.pow 2 63

def isNegative (number : Binary64) : Bool :=
  Nat.pow 2 63 ≤ number.bits.toNat

def infinite : Nat := 2047 * Nat.pow 2 52

def isFinite (number : Binary64) : Bool :=
  number.magnitude < infinite

def isNan (number : Binary64) : Bool :=
  infinite < number.magnitude

def ofMagnitude (negative : Bool) (magnitude : Nat) : Binary64 :=
  ⟨UInt64.ofNat (if negative then Nat.pow 2 63 + magnitude else magnitude)⟩

-- The two zeros are one number, and no number equals itself unless it is one.
def sameNumber (left right : Binary64) : Bool :=
  !left.isNan && !right.isNan &&
    (left.bits == right.bits || (left.magnitude == 0 && right.magnitude == 0))

/-- The unit, the smallest number above zero, is `2 ^ -unitPlaces`. -/
def unitPlaces : Nat := 1074

/-- The units in a finite magnitude. The first two exponents share one spacing. -/
def units (magnitude : Nat) : Nat :=
  let shift := magnitude / Nat.pow 2 52 - 1
  (magnitude - shift * Nat.pow 2 52) * Nat.pow 2 shift

/-- The magnitude nearest to a fraction of a unit; a tie goes to the even one. A fraction that
rounds up past the last bit of its spacing lands on the first magnitude of the next by plain
addition. -/
def nearest (dividend divisor : Nat) : Nat :=
  let shift := (dividend / divisor).log2 - 52
  shift * Nat.pow 2 52 + roundedQuotient .even dividend (divisor * Nat.pow 2 shift)

theorem units_pos {magnitude : Nat} (positive : 0 < magnitude) : 0 < units magnitude := by
  have significand : 0 < magnitude - (magnitude / 2 ^ 52 - 1) * 2 ^ 52 := by omega
  exact Nat.mul_pos significand (Nat.two_pow_pos _)

theorem units_of_lt {magnitude : Nat} (small : magnitude < Nat.pow 2 53) :
    units magnitude = magnitude := by
  simp only [Nat.pow_eq] at small
  have noShift : magnitude / 2 ^ 52 - 1 = 0 := by omega
  simp only [units, Nat.pow_eq, noShift, Nat.zero_mul, Nat.sub_zero, Nat.pow_zero, Nat.mul_one]

-- A finite number above the first spacings fills all the bits of its significand.
theorem significand_bounds {magnitude : Nat} (large : Nat.pow 2 52 ≤ magnitude) :
    Nat.pow 2 52 ≤ magnitude - (magnitude / Nat.pow 2 52 - 1) * Nat.pow 2 52 ∧
      magnitude - (magnitude / Nat.pow 2 52 - 1) * Nat.pow 2 52 < Nat.pow 2 53 := by
  simp only [Nat.pow_eq] at large ⊢
  omega

theorem log2_units (magnitude : Nat) :
    (units magnitude).log2 - 52 = magnitude / Nat.pow 2 52 - 1 := by
  by_cases small : magnitude < Nat.pow 2 53
  · rw [units_of_lt small]
    simp only [Nat.pow_eq] at small ⊢
    by_cases zero : magnitude = 0
    · subst zero
      decide
    · have := (Nat.log2_lt zero).2 small
      omega
  · have large : Nat.pow 2 52 ≤ magnitude := by
      simp only [Nat.pow_eq] at small ⊢
      omega
    have bounds := significand_bounds large
    unfold units
    simp only [Nat.pow_eq] at bounds ⊢
    generalize magnitude - (magnitude / 2 ^ 52 - 1) * 2 ^ 52 = significand at bounds
    generalize magnitude / 2 ^ 52 - 1 = shift
    have power := Nat.two_pow_pos shift
    have nonzero : significand * 2 ^ shift ≠ 0 := by
      have := Nat.mul_pos (show 0 < significand by omega) power
      omega
    have : (significand * 2 ^ shift).log2 = 52 + shift := by
      rw [Nat.log2_eq_iff nonzero, Nat.pow_add, Nat.add_right_comm, Nat.pow_add]
      exact ⟨Nat.mul_le_mul_right _ bounds.1, Nat.mul_lt_mul_of_pos_right bounds.2 power⟩
    omega

theorem roundedQuotient_mul (tie : Tie) (quotient divisor : Nat) (positive : 0 < divisor) :
    roundedQuotient tie (quotient * divisor) divisor = quotient := by
  simp [roundedQuotient, positive]

theorem nearest_units (magnitude divisor : Nat) (positive : 0 < divisor) :
    nearest (units magnitude * divisor) divisor = magnitude := by
  have regroup : units magnitude * divisor =
      (magnitude - (magnitude / 2 ^ 52 - 1) * 2 ^ 52) *
        (divisor * 2 ^ (magnitude / 2 ^ 52 - 1)) := by
    simp only [units, Nat.pow_eq]
    rw [Nat.mul_assoc, Nat.mul_comm (2 ^ _) divisor]
  unfold nearest
  rw [Nat.mul_div_cancel _ positive, log2_units, regroup]
  simp only [Nat.pow_eq]
  rw [roundedQuotient_mul _ _ _ (Nat.mul_pos positive (Nat.two_pow_pos _))]
  omega

end Binary64

namespace Decimal

/-- The number as a fraction of two naturals, in units. -/
def unitFraction (decimal : Decimal) : Nat × Nat :=
  if 0 ≤ decimal.exponent then
    (decimal.digits * Nat.pow 10 decimal.exponent.toNat * Nat.pow 2 Binary64.unitPlaces, 1)
  else
    (decimal.digits * Nat.pow 2 Binary64.unitPlaces, Nat.pow 10 (-decimal.exponent).toNat)

def magnitude (decimal : Decimal) : Nat :=
  Binary64.nearest decimal.unitFraction.1 decimal.unitFraction.2

theorem unitFraction_neg (digits : Nat) {places : Nat} (positive : 0 < places) :
    (⟨digits, -places⟩ : Decimal).unitFraction =
      (digits * Nat.pow 2 Binary64.unitPlaces, Nat.pow 10 places) := by
  unfold unitFraction
  rw [if_neg (by simp only; omega)]
  simp only [Int.neg_neg, Int.toNat_natCast]

end Decimal

end FilterQuery
