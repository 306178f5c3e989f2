import FilterQuery.Binary64.Arithmetic
import FilterQuery.Proofs.ShortestDigits

/-!
Decimals computed in steps. Whole numbers of 53 bits and the powers of ten up to `10 ^ 22` are
numbers themselves, so one product or quotient of them rounds once. Main statements: such a decimal
is computed as the number nearest to it; and a decimal of seventeen digits that is not above the
largest number is computed as a finite number.
-/

namespace FilterQuery

namespace Binary64

theorem exists_units {significand places : Nat} (fits : significand < 2 ^ 53) (far : 52 ≤ places) :
    ∃ magnitude, units magnitude = significand * 2 ^ places := by
  by_cases zero : significand = 0
  · exact ⟨0, by rw [zero, Nat.zero_mul, units_of_lt (by decide)]⟩
  · have short : significand.log2 < 53 := (Nat.log2_lt zero).mpr fits
    obtain ⟨missing, full⟩ : ∃ missing, missing + significand.log2 = 52 :=
      ⟨52 - significand.log2, by omega⟩
    have low : 2 ^ 52 ≤ significand * 2 ^ missing := by
      rw [← full, Nat.pow_add, Nat.mul_comm]
      exact Nat.mul_le_mul_right _ (Nat.log2_self_le zero)
    have high : significand * 2 ^ missing < 2 ^ 53 := by
      rw [show 53 = significand.log2 + 1 + missing by omega, Nat.pow_add]
      exact Nat.mul_lt_mul_of_pos_right Nat.lt_log2_self (Nat.two_pow_pos _)
    refine ⟨(places - missing) * 2 ^ 52 + significand * 2 ^ missing, ?_⟩
    have spacing : ((places - missing) * 2 ^ 52 + significand * 2 ^ missing) / 2 ^ 52 - 1 =
        places - missing := by
      omega
    simp only [units, Nat.pow_eq, spacing, Nat.add_sub_cancel_left]
    rw [Nat.mul_assoc, ← Nat.pow_add, show missing + (places - missing) = places by omega]

theorem exists_whole {significand : Nat} (fits : significand < 2 ^ 53) (zeros : Nat) {places : Nat}
    (far : 52 ≤ places) :
    ∃ magnitude, units magnitude = significand * 2 ^ zeros * Nat.pow 2 places := by
  obtain ⟨magnitude, exact⟩ := exists_units fits (show 52 ≤ zeros + places by omega)
  exact ⟨magnitude, by rw [exact, Nat.pow_eq, Nat.pow_add, Nat.mul_assoc]⟩

theorem units_rounded {significand : Nat} (zeros : Nat) (fits : significand < 2 ^ 53) :
    units (rounded (significand * 2 ^ zeros)) = significand * 2 ^ zeros * Nat.pow 2 unitPlaces := by
  obtain ⟨magnitude, exact⟩ := exists_whole fits zeros (show 52 ≤ unitPlaces by decide)
  rw [rounded_eq exact, exact]

theorem units_rounded_whole {number : Nat} (fits : number < 2 ^ 53) :
    units (rounded number) = number * Nat.pow 2 unitPlaces := by
  have exact := units_rounded 0 fits
  rwa [Nat.pow_zero, Nat.mul_one] at exact

theorem units_powerOfTen {exponent : Nat} (small : exponent ≤ 22) :
    units (powerOfTen exponent) = 10 ^ exponent * Nat.pow 2 unitPlaces := by
  have fits : 5 ^ exponent < 2 ^ 53 :=
    Nat.lt_of_le_of_lt (Nat.pow_le_pow_right (by decide) small) (by decide)
  have exact := units_rounded exponent fits
  rwa [← Nat.mul_pow] at exact

theorem rounded_mono {number larger : Nat} (atMost : number ≤ larger) :
    rounded number ≤ rounded larger :=
  nearest_mono Nat.one_pos Nat.one_pos (Nat.mul_le_mul_right _ (Nat.mul_le_mul_right _ atMost))

theorem product_mono {left larger right other : Nat} (atMost : left ≤ larger)
    (otherAtMost : right ≤ other) :
    product left right ≤ product larger other :=
  nearest_mono (two_pow_pos _) (two_pow_pos _)
    (Nat.mul_le_mul_right _ (Nat.mul_le_mul (units_mono atMost) (units_mono otherAtMost)))

theorem powerOfTen_mono {exponent larger : Nat} (atMost : exponent ≤ larger) :
    powerOfTen exponent ≤ powerOfTen larger :=
  rounded_mono (Nat.pow_le_pow_right (by decide) atMost)

theorem one_le_powerOfTen (exponent : Nat) :
    Nat.pow 2 unitPlaces ≤ units (powerOfTen exponent) := by
  have one : units (rounded 1) = Nat.pow 2 unitPlaces := by
    rw [units_rounded_whole (by decide), Nat.one_mul]
  rw [← one]
  exact units_mono (rounded_mono (Nat.pow_pos (by decide)))

theorem nearest_zero {divisor : Nat} (positive : 0 < divisor) : nearest 0 divisor = 0 := by
  have found := nearest_units 0 divisor positive
  rwa [units_of_lt (by decide), Nat.zero_mul] at found

theorem quotient_powerOfTen_le (left exponent : Nat) :
    quotient left (powerOfTen exponent) ≤ left := by
  have one := one_le_powerOfTen exponent
  have same := nearest_units left (Nat.pow 2 unitPlaces) (two_pow_pos _)
  rw [quotient]
  refine Nat.le_trans (nearest_mono (Nat.lt_of_lt_of_le (two_pow_pos _) one) (two_pow_pos _) ?_)
    (Nat.le_of_eq same)
  exact Nat.mul_le_mul_left _ one

def largest : Nat :=
  infinite - 1

def largestWhole : Nat :=
  (2 ^ 53 - 1) * Nat.pow 2 971

theorem units_largest : units largest = largestWhole * Nat.pow 2 unitPlaces := by
  decide +kernel

theorem largestWhole_lt {places : Nat} (beyond : 309 ≤ places) : largestWhole < 10 ^ places := by
  have least : largestWhole < Nat.pow 10 309 := by decide +kernel
  generalize 309 = bound at *
  exact Nat.lt_of_lt_of_le least (Nat.pow_le_pow_right (by decide) beyond)

/-- The greatest whole numbers of seventeen digits whose products with these powers of ten are not
above the greatest number: their rounded products are finite. -/
theorem product_largest_lt : ∀ further < 18,
    product (rounded (min (10 ^ 17) (largestWhole / Nat.pow 10 (291 + further))))
      (powerOfTen (291 + further)) < infinite := by
  decide +kernel

theorem product_lt_infinite {digits places : Nat} (few : digits ≤ 10 ^ 17)
    (finite : places ≤ maxPower) (atMost : digits * 10 ^ places ≤ largestWhole) :
    product (rounded digits) (powerOfTen places) < infinite := by
  have below := product_largest_lt (places - 291) (by simp only [maxPower] at finite; omega)
  refine Nat.lt_of_le_of_lt (product_mono (rounded_mono ?_) (powerOfTen_mono (by omega))) below
  refine Nat.le_min.mpr ⟨few, ?_⟩
  by_cases small : places < 291
  · rw [show 291 + (places - 291) = 291 by omega]
    exact Nat.le_trans few (by decide +kernel)
  · rw [show 291 + (places - 291) = places by omega]
    exact (Nat.le_div_iff_mul_le (Nat.pow_pos (by decide))).mpr atMost

end Binary64

namespace Decimal

open Binary64

/-- The digits are a number, and so is the power of ten. -/
def IsShort (decimal : Decimal) : Prop :=
  decimal.digits < 2 ^ 53 ∧ decimal.exponent.natAbs ≤ 22

instance (decimal : Decimal) : Decidable decimal.IsShort :=
  inferInstanceAs (Decidable (_ ∧ _))

theorem computed_of_short {decimal : Decimal} (short : decimal.IsShort) :
    decimal.computed = decimal.magnitude := by
  obtain ⟨few, near⟩ := short
  have exact := units_rounded_whole few
  have power := units_powerOfTen near
  have finite : decimal.exponent.natAbs ≤ maxPower := Nat.le_trans near (by decide)
  rw [magnitude, unitFraction_eq, computed]
  have positive := two_pow_pos unitPlaces
  by_cases zero : decimal.digits = 0
  · rw [if_pos zero, zero, Nat.zero_mul, Nat.zero_mul, nearest_zero (Nat.pow_pos (by decide))]
  · by_cases up : 0 ≤ decimal.exponent
    · simp only [if_neg zero, if_pos up, if_pos finite, product, exact, power]
      have same : decimal.exponent.natAbs = decimal.exponent.toNat := by omega
      have none : (-decimal.exponent).toNat = 0 := by omega
      rw [same, none]
      generalize Nat.pow 2 unitPlaces = one at *
      refine nearest_congr positive (by decide) ?_
      ring
    · simp only [if_neg zero, if_neg up, if_pos finite, quotient, exact, power]
      have same : decimal.exponent.natAbs = (-decimal.exponent).toNat := by omega
      have none : decimal.exponent.toNat = 0 := by omega
      rw [same, none]
      generalize Nat.pow 2 unitPlaces = one at *
      refine nearest_congr (Nat.mul_pos (Nat.pow_pos (by decide)) positive)
        (Nat.pow_pos (by decide)) ?_
      ring

/-- Seventeen digits of a number that is not above the greatest one are computed as a finite
number. -/
theorem computed_lt_infinite {decimal : Decimal} (few : decimal.digits ≤ 10 ^ 17)
    (atMost : decimal.unitFraction.1 ≤ units largest * decimal.unitFraction.2) :
    decimal.computed < infinite := by
  have start : rounded decimal.digits < infinite :=
    Nat.lt_of_le_of_lt (rounded_mono few) (by decide +kernel)
  have divided (left exponent : Nat) (finite : left < infinite) :
      quotient left (powerOfTen exponent) < infinite :=
    Nat.lt_of_le_of_lt (quotient_powerOfTen_le left exponent) finite
  have nothing : 0 < infinite := by decide
  rw [computed]
  by_cases zero : decimal.digits = 0
  · rwa [if_pos zero]
  by_cases up : 0 ≤ decimal.exponent
  · have same : decimal.exponent.natAbs = decimal.exponent.toNat := by omega
    have whole : decimal.digits * 10 ^ decimal.exponent.natAbs ≤ largestWhole := by
      rw [unitFraction_eq, show (-decimal.exponent).toNat = 0 by omega, ← same,
        units_largest] at atMost
      simp only [Nat.pow_zero, Nat.mul_one] at atMost
      exact Nat.le_of_mul_le_mul_right atMost (two_pow_pos _)
    have finite : decimal.exponent.natAbs ≤ maxPower := by
      by_contra above
      have power := Nat.le_trans (Nat.le_mul_of_pos_left _ (Nat.pos_of_ne_zero zero)) whole
      exact Nat.not_le_of_lt (largestWhole_lt (Nat.lt_of_not_le above)) power
    simp only [if_neg zero, if_pos up, if_pos finite]
    exact product_lt_infinite few finite whole
  · simp only [if_neg zero, if_neg up]
    split
    · exact divided _ _ start
    · split
      · exact divided _ _ (divided _ _ start)
      · exact nothing

end Decimal

end FilterQuery
