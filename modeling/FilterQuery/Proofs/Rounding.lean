import FilterQuery.Binary64
import Mathlib.Data.Nat.Log
import Mathlib.Tactic.Linarith
import Mathlib.Tactic.Ring

/-!
Rounding a fraction to a magnitude. A greater fraction never gets a smaller magnitude, so two
fractions of one value get the same. Main statement: a fraction that differs from a number by less
than its `2 ^ 54`-th part rounds to it.
-/

namespace FilterQuery

theorem div_le_div_of_cross {dividend divisor other otherDivisor : Nat} (positive : 0 < divisor)
    (otherPositive : 0 < otherDivisor) (atMost : dividend * otherDivisor ≤ other * divisor) :
    dividend / divisor ≤ other / otherDivisor := by
  rw [Nat.le_div_iff_mul_le otherPositive]
  refine Nat.le_of_mul_le_mul_right (Nat.le_trans ?_ atMost) positive
  calc dividend / divisor * otherDivisor * divisor =
    dividend / divisor * divisor * otherDivisor := by ring
    _ ≤ dividend * otherDivisor := Nat.mul_le_mul_right _ (Nat.div_mul_le_self _ _)

theorem roundedQuotient_cases (tie : Tie) (dividend divisor : Nat) :
    roundedQuotient tie dividend divisor = dividend / divisor ∧ 2 * (dividend % divisor) ≤ divisor ∨
      roundedQuotient tie dividend divisor = dividend / divisor + 1 ∧
        divisor ≤ 2 * (dividend % divisor) := by
  have parity := Nat.mod_lt (dividend / divisor) two_pos
  unfold roundedQuotient
  cases tie <;> grind

theorem roundedQuotient_bounds (tie : Tie) (dividend divisor : Nat) :
    dividend / divisor ≤ roundedQuotient tie dividend divisor ∧
      roundedQuotient tie dividend divisor ≤ dividend / divisor + 1 := by
  obtain ⟨down, _⟩ | ⟨up, _⟩ := roundedQuotient_cases tie dividend divisor <;> omega

theorem roundedQuotient_close (tie : Tie) (dividend : Nat) {divisor : Nat}
    (positive : 0 < divisor) :
    2 * (roundedQuotient tie dividend divisor * divisor) ≤ 2 * dividend + divisor ∧
      2 * dividend ≤ 2 * (roundedQuotient tie dividend divisor * divisor) + divisor := by
  have whole := Nat.div_add_mod' dividend divisor
  have remainder := Nat.mod_lt dividend positive
  obtain ⟨down, half⟩ | ⟨up, half⟩ := roundedQuotient_cases tie dividend divisor
  · rw [down]
    omega
  · rw [up, Nat.add_mul]
    omega

theorem roundedQuotient_even_mono {dividend divisor other otherDivisor : Nat}
    (positive : 0 < divisor) (otherPositive : 0 < otherDivisor)
    (atMost : dividend * otherDivisor ≤ other * divisor) :
    roundedQuotient .even dividend divisor ≤ roundedQuotient .even other otherDivisor := by
  obtain further | same := Nat.lt_or_eq_of_le (div_le_div_of_cross positive otherPositive atMost)
  · have first := (roundedQuotient_bounds .even dividend divisor).2
    have second := (roundedQuotient_bounds .even other otherDivisor).1
    omega
  · -- Both have the same whole part, so the remainders decide, and the same way at a tie.
    have whole := Nat.div_add_mod dividend divisor
    have otherWhole := Nat.div_add_mod other otherDivisor
    have remainders : dividend % divisor * otherDivisor ≤ other % otherDivisor * divisor := by
      rw [← same] at otherWhole
      generalize dividend / divisor = quotient at whole otherWhole
      nlinarith
    have reaches (half : divisor ≤ 2 * (dividend % divisor)) :
        otherDivisor ≤ 2 * (other % otherDivisor) :=
      Nat.le_of_mul_le_mul_right (by nlinarith) positive
    have stays (half : 2 * (other % otherDivisor) ≤ otherDivisor) :
        2 * (dividend % divisor) ≤ divisor :=
      Nat.le_of_mul_le_mul_right (by nlinarith) otherPositive
    simp only [roundedQuotient, ← same]
    grind

theorem roundedQuotient_of_close (tie : Tie) (quotient : Nat) {dividend divisor : Nat}
    (above : 2 * dividend < 2 * (quotient * divisor) + divisor)
    (below : 2 * (quotient * divisor) < 2 * dividend + divisor) :
    roundedQuotient tie dividend divisor = quotient := by
  have positive : 0 < divisor := Nat.pos_of_ne_zero (by rintro rfl; simp at above)
  have whole := Nat.div_add_mod dividend divisor
  have remainder := Nat.mod_lt dividend positive
  unfold roundedQuotient
  generalize dividend / divisor = found at *
  generalize dividend % divisor = rest at *
  obtain atQuotient | next : found = quotient ∨ found + 1 = quotient := by
    have notAbove : found < quotient + 1 := Nat.lt_of_mul_lt_mul_right (a := divisor) (by nlinarith)
    have notBelow : quotient < found + 2 := Nat.lt_of_mul_lt_mul_right (a := divisor) (by nlinarith)
    omega
  · subst atQuotient
    exact if_pos (by nlinarith)
  · subst next
    rw [if_neg (by nlinarith), if_pos (by nlinarith)]

namespace Binary64

variable {dividend divisor other otherDivisor : Nat}

def shift (dividend divisor : Nat) : Nat :=
  (dividend / divisor).log2 - 52

theorem nearest_eq (dividend divisor : Nat) :
    nearest dividend divisor = shift dividend divisor * 2 ^ 52 +
      roundedQuotient .even dividend (divisor * 2 ^ shift dividend divisor) :=
  rfl

theorem shift_le_iff (places : Nat) :
    shift dividend divisor ≤ places ↔ dividend / divisor < 2 ^ (53 + places) := by
  rw [shift]
  generalize dividend / divisor = whole
  by_cases zero : whole = 0
  · simp [zero]
  · rw [← Nat.log2_lt zero]
    omega

theorem le_shift_iff {places : Nat} (positive : 0 < places) :
    places ≤ shift dividend divisor ↔ 2 ^ (52 + places) ≤ dividend / divisor := by
  rw [shift]
  generalize dividend / divisor = whole
  by_cases zero : whole = 0
  · simp [zero, Nat.ne_of_gt positive]
  · rw [← Nat.le_log2 zero]
    omega

/-- What is left has at most 53 bits, and no fewer when some were rounded away. -/
theorem div_shift_bounds (dividend divisor : Nat) :
    dividend / (divisor * 2 ^ shift dividend divisor) < 2 ^ 53 ∧
      (0 < shift dividend divisor →
        2 ^ 52 ≤ dividend / (divisor * 2 ^ shift dividend divisor)) := by
  rw [← Nat.div_div_eq_div_mul]
  refine ⟨?_, fun shifted => ?_⟩
  · rw [Nat.div_lt_iff_lt_mul (Nat.two_pow_pos _), ← Nat.pow_add]
    exact (shift_le_iff _).mp (Nat.le_refl _)
  · rw [Nat.le_div_iff_mul_le (Nat.two_pow_pos _), ← Nat.pow_add]
    exact (le_shift_iff shifted).mp (Nat.le_refl _)

theorem shift_mono (positive : 0 < divisor) (otherPositive : 0 < otherDivisor)
    (atMost : dividend * otherDivisor ≤ other * divisor) :
    shift dividend divisor ≤ shift other otherDivisor := by
  rw [shift_le_iff]
  exact Nat.lt_of_le_of_lt (div_le_div_of_cross positive otherPositive atMost)
    ((shift_le_iff _).mp (Nat.le_refl _))

theorem nearest_mono (positive : 0 < divisor) (otherPositive : 0 < otherDivisor)
    (atMost : dividend * otherDivisor ≤ other * divisor) :
    nearest dividend divisor ≤ nearest other otherDivisor := by
  rw [nearest_eq, nearest_eq]
  obtain further | same := Nat.lt_or_eq_of_le (shift_mono positive otherPositive atMost)
  · have few := (div_shift_bounds dividend divisor).1
    have many := (div_shift_bounds other otherDivisor).2 (Nat.zero_lt_of_lt further)
    have first := (roundedQuotient_bounds .even dividend (divisor * 2 ^ shift dividend divisor)).2
    have second :=
      (roundedQuotient_bounds .even other (otherDivisor * 2 ^ shift other otherDivisor)).1
    omega
  · rw [← same]
    refine Nat.add_le_add_left (roundedQuotient_even_mono (Nat.mul_pos positive (Nat.two_pow_pos _))
      (Nat.mul_pos otherPositive (Nat.two_pow_pos _)) ?_) _
    calc dividend * (otherDivisor * 2 ^ shift dividend divisor)
        = dividend * otherDivisor * 2 ^ shift dividend divisor := by ring
      _ ≤ other * divisor * 2 ^ shift dividend divisor := Nat.mul_le_mul_right _ atMost
      _ = other * (divisor * 2 ^ shift dividend divisor) := by ring

theorem nearest_congr (positive : 0 < divisor) (otherPositive : 0 < otherDivisor)
    (same : dividend * otherDivisor = other * divisor) :
    nearest dividend divisor = nearest other otherDivisor :=
  Nat.le_antisymm (nearest_mono positive otherPositive (Nat.le_of_eq same))
    (nearest_mono otherPositive positive (Nat.le_of_eq same.symm))

theorem units_mono {magnitude larger : Nat} (atMost : magnitude ≤ larger) :
    units magnitude ≤ units larger := by
  by_contra above
  have rounded : nearest (units larger * 1) 1 ≤ nearest (units magnitude * 1) 1 :=
    nearest_mono Nat.one_pos Nat.one_pos
      (Nat.mul_le_mul_right 1 (Nat.mul_le_mul_right 1 (Nat.le_of_lt (Nat.lt_of_not_le above))))
  rw [nearest_units _ _ Nat.one_pos, nearest_units _ _ Nat.one_pos] at rounded
  rw [Nat.le_antisymm atMost rounded] at above
  exact above (Nat.le_refl _)

/-- A finite magnitude is a significand of at most 53 bits and the spacing that it is counted in. -/
theorem exists_significand (magnitude : Nat) : ∃ significand places,
    magnitude = places * 2 ^ 52 + significand ∧ units magnitude = significand * 2 ^ places ∧
      significand < 2 ^ 53 ∧ (0 < places → 2 ^ 52 ≤ significand) := by
  refine ⟨magnitude - (magnitude / 2 ^ 52 - 1) * 2 ^ 52, magnitude / 2 ^ 52 - 1, ?_, rfl,
    ?_, ?_⟩ <;> omega

theorem nearest_of_close {magnitude : Nat} (positive : 0 < divisor)
    (above : 2 ^ 54 * dividend < 2 ^ 54 * (units magnitude * divisor) + units magnitude * divisor)
    (below : 2 ^ 54 * (units magnitude * divisor) < 2 ^ 54 * dividend + units magnitude * divisor) :
    nearest dividend divisor = magnitude := by
  obtain ⟨significand, places, rfl, exact, few, many⟩ := exists_significand magnitude
  have spacing : units (places * 2 ^ 52 + significand) * divisor =
      significand * (divisor * 2 ^ places) := by
    rw [exact]
    ring
  rw [spacing] at above below
  have spaced : 0 < divisor * 2 ^ places := Nat.mul_pos positive (Nat.two_pow_pos _)
  have atMost : significand * (divisor * 2 ^ places) ≤ (2 ^ 53 - 1) * (divisor * 2 ^ places) :=
    Nat.mul_le_mul_right _ (by omega)
  have shiftAtMost : shift dividend divisor ≤ places := by
    rw [shift_le_iff, Nat.div_lt_iff_lt_mul positive, Nat.pow_add, Nat.mul_assoc,
      Nat.mul_comm (2 ^ places)]
    omega
  rw [nearest_eq]
  obtain lower | same := Nat.lt_or_eq_of_le shiftAtMost
  · -- Below a power of two the numbers lie closer together, and what is just below it is rounded
    -- in their spacing.
    have large := many (Nat.zero_lt_of_lt lower)
    obtain ⟨fewer, rfl⟩ : ∃ fewer, places = fewer + 1 := ⟨places - 1, by omega⟩
    have halves : divisor * 2 ^ (fewer + 1) = 2 * (divisor * 2 ^ fewer) := by ring
    have notSame (places : Nat) (above : shift dividend divisor < places) :
        dividend < 2 ^ 52 * (divisor * 2 ^ places) := by
      have notThere := mt (le_shift_iff (Nat.zero_lt_of_lt above)).mpr (Nat.not_le.mpr above)
      rw [Nat.not_le, Nat.div_lt_iff_lt_mul positive, Nat.pow_add] at notThere
      linarith
    have small := notSame _ lower
    have lowest : significand = 2 ^ 52 := by
      by_contra higher
      have atLeast : (2 ^ 52 + 1) * (divisor * 2 ^ (fewer + 1)) ≤
          significand * (divisor * 2 ^ (fewer + 1)) :=
        Nat.mul_le_mul_right _ (by omega)
      omega
    subst lowest
    have shiftIs : shift dividend divisor = fewer := by
      by_contra other
      have smaller := notSame fewer (by omega)
      omega
    rw [shiftIs, roundedQuotient_of_close .even (2 ^ 53) (by omega) (by omega)]
    omega
  · rw [same, roundedQuotient_of_close .even significand]
    · omega
    · omega

end Binary64

end FilterQuery
