import FilterQuery.Binary64.Shortest
import FilterQuery.Proofs.Rounding

/-!
The digits of the shortest decimal. A number and its decimal point are related as the point says
they are, so on the grid of seventeen digits the nearest decimal is close enough to read back. Main
statement: seventeen digits suffice for every number, and no more are written.
-/

namespace FilterQuery

namespace Binary64

theorem le_placesBelowOne {bound count : Nat}
    (reached : Nat.pow 2 unitPlaces ≤ count * 10 ^ bound) :
    Nat.pow 2 unitPlaces ≤ count * 10 ^ placesBelowOne bound count := by
  induction bound generalizing count with
  | zero => exact reached
  | succ bound ih =>
      rw [placesBelowOne]
      generalize Nat.pow 2 unitPlaces = one at *
      split
      · omega
      · rw [Nat.pow_succ', ← Nat.mul_assoc] at reached ⊢
        exact ih reached

theorem placesBelowOne_lt {count : Nat} (bound : Nat) (small : count < 10 * Nat.pow 2 unitPlaces) :
    count * 10 ^ placesBelowOne bound count < 10 * Nat.pow 2 unitPlaces := by
  induction bound generalizing count with
  | zero =>
      rw [placesBelowOne]
      omega
  | succ bound ih =>
      rw [placesBelowOne]
      generalize Nat.pow 2 unitPlaces = one at *
      split
      · omega
      · rw [Nat.pow_succ', ← Nat.mul_assoc]
        exact ih (by omega)

theorem one_le_of_far (bound : Nat) {count : Nat} (positive : 0 < count)
    (far : Nat.pow 2 unitPlaces ≤ Nat.pow 10 bound) :
    Nat.pow 2 unitPlaces ≤ count * 10 ^ placesBelowOne bound count :=
  le_placesBelowOne (Nat.le_trans far (Nat.le_mul_of_pos_left _ positive))

theorem two_pow_pos (places : Nat) : 0 < Nat.pow 2 places :=
  Nat.two_pow_pos places

/-- The decimal point stands just behind the first digit of a number, `left` places further when the
number is large and `right` places before it when it is small. -/
theorem decimalPoint_spec {magnitude : Nat} (positive : 0 < magnitude) : ∃ left right : Nat,
    decimalPoint magnitude = left + 1 - right ∧
      10 ^ left * Nat.pow 2 unitPlaces ≤ units magnitude * 10 ^ right ∧
      units magnitude * 10 ^ right < 10 ^ (left + 1) * Nat.pow 2 unitPlaces := by
  have atLeast := one_le_of_far 400 (units_pos positive) (by decide +kernel)
  have below := @placesBelowOne_lt (units magnitude) 400
  have onePositive := two_pow_pos unitPlaces
  simp only [decimalPoint]
  generalize Nat.pow 2 unitPlaces = one at *
  split
  · rename_i small
    have less : units magnitude < one := (Nat.div_eq_zero_iff_lt onePositive).mp small
    generalize placesBelowOne 400 (units magnitude) = right at *
    refine ⟨0, right, by omega, ?_, ?_⟩
    · rwa [Nat.pow_zero, Nat.one_mul]
    · rw [Nat.zero_add, Nat.pow_one]
      exact below (by omega)
  · rename_i large
    generalize whole : units magnitude / one = quotient at large
    obtain ⟨others, length⟩ : ∃ others, (Nat.toDigits 10 quotient).length = others + 1 :=
      Nat.exists_eq_add_one.mpr Nat.length_toDigits_pos
    refine ⟨others, 0, by rw [length]; simp, ?_, ?_⟩
    · rw [Nat.pow_zero, Nat.mul_one, ← Nat.le_div_iff_mul_le onePositive, whole]
      obtain rfl | some := Nat.eq_zero_or_pos others
      · omega
      · refine Nat.le_of_not_lt fun less => ?_
        have short := (Nat.length_toDigits_le_iff (by decide) some).mpr less
        omega
    · rw [Nat.pow_zero, Nat.mul_one, ← Nat.div_lt_iff_lt_mul onePositive, whole]
      exact (Nat.length_toDigits_le_iff (by decide) (by omega)).mp (Nat.le_of_eq length)

theorem onGrid_eq (magnitude : Nat) (exponent : Int) : onGrid magnitude exponent =
    (units magnitude * 10 ^ (-exponent).toNat, Nat.pow 2 unitPlaces * 10 ^ exponent.toNat) := by
  unfold onGrid
  generalize Nat.pow 2 unitPlaces = one
  simp only [Nat.pow_eq]
  split
  · rw [show (-exponent).toNat = 0 by omega, Nat.pow_zero, Nat.mul_one]
  · rw [show exponent.toNat = 0 by omega, Nat.pow_zero, Nat.mul_one]

theorem onGrid_bounds {magnitude count : Nat} (positive : 0 < magnitude) (some : 0 < count) :
    let grid := onGrid magnitude (decimalPoint magnitude - count)
    10 ^ (count - 1) * grid.2 ≤ grid.1 ∧ grid.1 < 10 ^ count * grid.2 := by
  obtain ⟨left, right, point, low, high⟩ := decimalPoint_spec positive
  simp only [onGrid_eq, point]
  generalize Nat.pow 2 unitPlaces = one at *
  generalize units magnitude = number at *
  obtain ⟨before, before_eq⟩ : ∃ before, before = (-((left : Int) + 1 - right - count)).toNat :=
    ⟨_, rfl⟩
  obtain ⟨after, after_eq⟩ : ∃ after, after = ((left : Int) + 1 - right - count).toNat := ⟨_, rfl⟩
  rw [← before_eq, ← after_eq]
  have level : count - 1 + after + right = left + before := by omega
  have scale : 0 < 10 ^ right := Nat.pow_pos (by decide)
  constructor
  · refine Nat.le_of_mul_le_mul_right ?_ scale
    calc 10 ^ (count - 1) * (one * 10 ^ after) * 10 ^ right
        = one * 10 ^ (count - 1 + after + right) := by
          rw [Nat.pow_add, Nat.pow_add]; ring
      _ = 10 ^ left * one * 10 ^ before := by rw [level, Nat.pow_add]; ring
      _ ≤ number * 10 ^ right * 10 ^ before := Nat.mul_le_mul_right _ low
      _ = number * 10 ^ before * 10 ^ right := by ring
  · refine Nat.lt_of_mul_lt_mul_right (a := 10 ^ right) ?_
    calc number * 10 ^ before * 10 ^ right = number * 10 ^ right * 10 ^ before := by ring
      _ < 10 ^ (left + 1) * one * 10 ^ before :=
          Nat.mul_lt_mul_of_pos_right high (Nat.pow_pos (by decide))
      _ = one * 10 ^ (count - 1 + after + right + 1) := by
          rw [level, Nat.pow_add, Nat.pow_add, Nat.pow_add]; ring
      _ = 10 ^ count * (one * 10 ^ after) * 10 ^ right := by
          rw [show count - 1 + after + right + 1 = count + after + right by omega, Nat.pow_add,
            Nat.pow_add]; ring

end Binary64

theorem Decimal.unitFraction_eq (decimal : Decimal) :
    decimal.unitFraction =
      (decimal.digits * 10 ^ decimal.exponent.toNat * Nat.pow 2 Binary64.unitPlaces,
      10 ^ (-decimal.exponent).toNat) := by
  simp only [unitFraction, Nat.pow_eq]
  split
  · rw [show (-decimal.exponent).toNat = 0 by omega, Nat.pow_zero]
  · rw [show decimal.exponent.toNat = 0 by omega, Nat.pow_zero, Nat.mul_one]

namespace Binary64

theorem nearest_mem_neighbours (tie : Tie) (magnitude count : Nat) :
    ⟨roundedQuotient tie (onGrid magnitude (decimalPoint magnitude - count)).1
      (onGrid magnitude (decimalPoint magnitude - count)).2, decimalPoint magnitude - count⟩ ∈
        neighbours tie magnitude count := by
  unfold neighbours
  exact List.mem_cons_self

/-- On the grid of seventeen digits a decimal reads back, the nearest one. -/
theorem exists_neighbour_readsBack (tie : Tie) {magnitude : Nat} (positive : 0 < magnitude) :
    ∃ decimal ∈ neighbours tie magnitude 17, readsBack magnitude decimal = true := by
  refine ⟨_, nearest_mem_neighbours tie magnitude 17, ?_⟩
  obtain ⟨atLeast, _⟩ := onGrid_bounds positive (show 0 < 17 by decide)
  generalize exponent_eq : decimalPoint magnitude - ((17 : Nat) : Int) = exponent at *
  obtain ⟨dividend, divisor⟩ := Prod.ext_iff.mp (onGrid_eq magnitude exponent)
  generalize onGrid magnitude exponent = grid at *
  simp only at dividend divisor
  have spaced : 0 < grid.2 := by
    rw [divisor]
    exact Nat.mul_pos (two_pow_pos _) (Nat.pow_pos (by decide))
  have close := roundedQuotient_close tie grid.1 spaced
  generalize roundedQuotient tie grid.1 grid.2 = digits at *
  have scaled : digits * 10 ^ exponent.toNat * Nat.pow 2 unitPlaces = digits * grid.2 := by
    rw [divisor, Nat.mul_assoc, Nat.mul_comm (10 ^ _)]
  rw [readsBack, decide_eq_true_eq, Decimal.magnitude, Decimal.unitFraction_eq]
  simp only [scaled]
  refine nearest_of_close (Nat.pow_pos (by decide)) ?_ ?_
  · rw [← dividend]
    omega
  · rw [← dividend]
    omega

theorem digits_neighbour_le {tie : Tie} {magnitude count : Nat} (positive : 0 < magnitude)
    (some : 0 < count) {decimal : Decimal} (neighbour : decimal ∈ neighbours tie magnitude count) :
    decimal.digits ≤ 10 ^ count := by
  obtain ⟨_, atMost⟩ := onGrid_bounds positive some
  unfold neighbours at neighbour
  simp only at atMost neighbour
  generalize onGrid magnitude (decimalPoint magnitude - count) = grid at atMost neighbour
  have below := Nat.div_lt_of_lt_mul (Nat.mul_comm _ _ ▸ atMost)
  have rounded := (roundedQuotient_bounds tie grid.1 grid.2).2
  obtain ⟨digits, member, rfl⟩ := List.mem_map.mp neighbour
  simp only [List.mem_cons, List.not_mem_nil, or_false] at member
  simp only
  omega

/-- The shortest decimal of a number has at most seventeen digits, or is the power of ten above
them. -/
theorem digits_shortest_le (tie : Tie) {magnitude : Nat} (positive : 0 < magnitude) :
    (shortest tie magnitude).digits ≤ 10 ^ 17 := by
  rw [shortest]
  cases found : fewestDigits? tie magnitude with
  | none =>
      obtain ⟨decimal, neighbour, reads⟩ := exists_neighbour_readsBack tie positive
      have nowhere :=
        List.find?_eq_none.mp (List.findSome?_eq_none_iff.mp found 16 (by simp)) decimal neighbour
      exact absurd reads nowhere
  | some decimal =>
      obtain ⟨below, inRange, first⟩ := List.exists_of_findSome?_eq_some found
      have few := digits_neighbour_le positive (by omega) (List.mem_of_find?_eq_some first)
      exact Nat.le_trans few (Nat.pow_le_pow_right (by decide) (List.mem_range.mp inRange))

end Binary64

end FilterQuery
