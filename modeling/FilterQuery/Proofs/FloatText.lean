import FilterQuery.Binary64.Written
import FilterQuery.Proofs.ComputedNumbers
import FilterQuery.Proofs.Numerals

/-!
Floats as JSON writes them. The digits of the shortest decimal are written without the zeros behind
them, plainly or with a power of ten, and never look like an integer. Main statement: a finite float
is written as a numeral, which is read as a finite float, and as the same one when the numeral is
short.
-/

namespace FilterQuery

namespace Decimal

def withZeros (decimal : Decimal) (zeros : Nat) : Decimal :=
  ⟨decimal.digits * 10 ^ zeros, decimal.exponent - zeros⟩

theorem unitFraction_withZeros (decimal : Decimal) (zeros : Nat) :
    (decimal.withZeros zeros).unitFraction.1 * decimal.unitFraction.2 =
      decimal.unitFraction.1 * (decimal.withZeros zeros).unitFraction.2 := by
  rw [unitFraction_eq, unitFraction_eq]
  simp only [withZeros]
  generalize Nat.pow 2 Binary64.unitPlaces = one
  have level : zeros + (decimal.exponent - zeros).toNat + (-decimal.exponent).toNat =
      decimal.exponent.toNat + (-(decimal.exponent - zeros)).toNat := by omega
  calc decimal.digits * 10 ^ zeros * 10 ^ (decimal.exponent - zeros).toNat * one *
        10 ^ (-decimal.exponent).toNat
      = decimal.digits * one *
          10 ^ (zeros + (decimal.exponent - zeros).toNat + (-decimal.exponent).toNat) := by
        rw [Nat.pow_add, Nat.pow_add]; ring
    _ = decimal.digits * 10 ^ decimal.exponent.toNat * one *
          10 ^ (-(decimal.exponent - zeros)).toNat := by
        rw [level, Nat.pow_add]; ring

theorem unitFraction_pos (decimal : Decimal) : 0 < decimal.unitFraction.2 := by
  rw [unitFraction_eq]
  exact Nat.pow_pos (by decide)

theorem magnitude_withZeros (decimal : Decimal) (zeros : Nat) :
    (decimal.withZeros zeros).magnitude = decimal.magnitude :=
  Binary64.nearest_congr (unitFraction_pos _) (unitFraction_pos _)
    (unitFraction_withZeros decimal zeros)

def AtMostLargest (decimal : Decimal) : Prop :=
  decimal.unitFraction.1 ≤ Binary64.units Binary64.largest * decimal.unitFraction.2

theorem atMostLargest_withZeros (decimal : Decimal) (zeros : Nat) :
    (decimal.withZeros zeros).AtMostLargest ↔ decimal.AtMostLargest := by
  have same := unitFraction_withZeros decimal zeros
  have positive := unitFraction_pos decimal
  have otherPositive := unitFraction_pos (decimal.withZeros zeros)
  rw [AtMostLargest, AtMostLargest]
  generalize decimal.unitFraction = fraction at *
  generalize (decimal.withZeros zeros).unitFraction = other at *
  constructor
  · intro atMost
    refine Nat.le_of_mul_le_mul_right ?_ otherPositive
    calc fraction.1 * other.2 = other.1 * fraction.2 := same.symm
      _ ≤ Binary64.units Binary64.largest * other.2 * fraction.2 := Nat.mul_le_mul_right _ atMost
      _ = Binary64.units Binary64.largest * fraction.2 * other.2 := by ring
  · intro atMost
    refine Nat.le_of_mul_le_mul_right ?_ positive
    calc other.1 * fraction.2 = fraction.1 * other.2 := same
      _ ≤ Binary64.units Binary64.largest * fraction.2 * other.2 := Nat.mul_le_mul_right _ atMost
      _ = Binary64.units Binary64.largest * other.2 * fraction.2 := by ring

end Decimal

namespace Binary64

theorem shortest_largest : shortest .even largest = ⟨17976931348623157, 292⟩ := by
  decide +kernel

theorem shortest_atMostLargest {magnitude : Nat} (finite : magnitude < infinite) :
    (shortest .even magnitude).AtMostLargest := by
  obtain less | same : magnitude < largest ∨ magnitude = largest := by
    rw [largest]
    omega
  · rw [Decimal.AtMostLargest]
    by_contra above
    have positive := (shortest .even magnitude).unitFraction_pos
    have rounds := nearest_mono positive positive
      (Nat.mul_le_mul_right (shortest .even magnitude).unitFraction.2
        (Nat.le_of_lt (Nat.lt_of_not_le above)))
    rw [nearest_units _ _ positive] at rounds
    have reads := magnitude_shortest .even magnitude
    rw [Decimal.magnitude] at reads
    omega
  · rw [same, shortest_largest, Decimal.AtMostLargest]
    decide +kernel

theorem digits_shortest_pos (tie : Tie) {magnitude : Nat} (positive : 0 < magnitude) :
    0 < (shortest tie magnitude).digits := by
  have reads := magnitude_shortest tie magnitude
  refine Nat.pos_of_ne_zero fun zero => ?_
  rw [Decimal.magnitude, Decimal.unitFraction_eq, zero, Nat.zero_mul, Nat.zero_mul,
    nearest_zero (Nat.pow_pos (by decide))] at reads
  omega

end Binary64

namespace Text

def significant (digits : List Char) : List Char :=
  (digits.reverse.dropWhile (· == '0')).reverse

theorem exists_zeros (digits : List Char) :
    ∃ zeros, digits = significant digits ++ List.replicate zeros '0' := by
  have zero : ∀ digit ∈ digits.reverse.takeWhile (· == '0'), digit = '0' := fun digit member =>
    eq_of_beq (List.all_eq_true.mp List.all_takeWhile digit member)
  refine ⟨(digits.reverse.takeWhile (· == '0')).length, ?_⟩
  have split :=
    congrArg List.reverse (List.takeWhile_append_dropWhile (p := (· == '0')) (l := digits.reverse))
  rw [List.reverse_append, List.reverse_reverse, List.eq_replicate_of_mem zero,
    List.reverse_replicate] at split
  exact split.symm

theorem ofDigits_append_zeros (digits : List Char) (zeros : Nat) :
    ofDigits (digits ++ List.replicate zeros '0') = ofDigits digits * 10 ^ zeros := by
  have none := ofDigits_zeros zeros []
  rw [List.append_nil] at none
  rw [ofDigits_append, none, List.length_replicate, Nat.mul_comm]
  rfl

end Text

namespace Json.Numeral

open Text

/-- A numeral that a style writes for a number: its text without the sign, and its value up to zeros
behind it. -/
structure Writes (numeral : Numeral) (negative : Bool) (unsigned : List Char)
    (decimal : Decimal) : Prop where
  written : numeral.IsWritten
  sign : numeral.negative = negative
  text : numeral.whole ++ (fractionText numeral.fraction ++ powerText numeral.power) = unsigned
  notInteger : numeral.fraction ≠ [] ∨ numeral.power ≠ none
  few : numeral.decimal.digits ≤ 10 ^ 17
  value : ∃ zeros, numeral.decimal = decimal.withZeros zeros

section Digits

variable {digits : List Char} (negative : Bool) {point : Int}

def pointed (digits : List Char) (point : Int) : Decimal :=
  ⟨ofDigits digits, point - digits.length⟩

theorem fractionText_of_nonempty {fraction : List Char} (nonempty : fraction ≠ []) :
    fractionText fraction = '.' :: fraction := by
  rw [fractionText, if_neg (by simpa using nonempty)]

theorem exists_withZeros {decimal other : Decimal} (zeros : Nat)
    (digits : decimal.digits = other.digits * 10 ^ zeros)
    (exponent : decimal.exponent = other.exponent - zeros) :
    ∃ zeros, decimal = other.withZeros zeros := by
  refine ⟨zeros, ?_⟩
  rw [Decimal.withZeros, ← digits, ← exponent]

theorem writes_below_one (numeric : AllDigits digits) (nonempty : digits ≠ [])
    (few : ofDigits digits ≤ 10 ^ 17) (below : point ≤ 0) :
    ∃ numeral, Writes numeral negative (NumberStyle.document.positional digits point)
      (pointed digits point) := by
  have value : ofDigits ('0' :: (List.replicate (-point).toNat '0' ++ digits)) = ofDigits digits :=
    ofDigits_zeros ((-point).toNat + 1) digits
  refine ⟨⟨negative, ['0'], List.replicate (-point).toNat '0' ++ digits, none⟩,
    ⟨⟨by simp, by simp, List.forall_mem_singleton.mpr rfl, ?_⟩, rfl, ?_,
      .inl (by simp [nonempty]), ?_, exists_withZeros 0 ?_ ?_⟩⟩
  · refine AllDigits.append (fun digit zero => ?_) numeric
    rw [List.eq_of_mem_replicate zero]
    rfl
  · rw [fractionText_of_nonempty (by simp [nonempty]), NumberStyle.positional, if_pos below]
    simp [powerText]
  · exact Nat.le_trans (Nat.le_of_eq value) few
  · rw [Nat.pow_zero, Nat.mul_one]
    exact value
  · simp only [decimal, pointed, List.length_append, List.length_replicate, Option.getD_none]
    omega

theorem allDigits_zeros (zeros : Nat) : AllDigits (List.replicate zeros '0') := by
  intro digit zero
  rw [List.eq_of_mem_replicate zero]
  rfl

theorem writes_whole (numeric : AllDigits digits) (nonempty : digits ≠ [])
    (noZero : digits.head? ≠ some '0') (above : 0 < point) (short : digits.length ≤ point.toNat)
    (near : point ≤ 16) :
    ∃ numeral, Writes numeral negative (NumberStyle.document.positional digits point)
      (pointed digits point) := by
  have value : ofDigits (digits ++ List.replicate (point.toNat - digits.length) '0' ++ ['0']) =
      ofDigits digits * 10 ^ (point.toNat - digits.length + 1) := by
    rw [List.append_assoc, ← ofDigits_append_zeros, List.replicate_succ']
  have whole := AllDigits.append numeric (allDigits_zeros (point.toNat - digits.length))
  have fraction : AllDigits ['0'] := List.forall_mem_singleton.mpr rfl
  have few := ofDigits_lt (AllDigits.append whole fraction)
  have width :
      (digits ++ List.replicate (point.toNat - digits.length) '0' ++ ['0']).length ≤ 17 := by
    simp only [List.length_append, List.length_replicate, List.length_singleton]
    omega
  refine ⟨⟨negative, digits ++ List.replicate (point.toNat - digits.length) '0', ['0'], none⟩,
    ⟨⟨by simp [nonempty], ?_, whole, fraction⟩, rfl, ?_, .inl (by simp), ?_,
      exists_withZeros _ value ?_⟩⟩
  · obtain ⟨digit, others, rfl⟩ := List.exists_cons_of_ne_nil nonempty
    exact fun zero => noZero zero.1
  · rw [NumberStyle.positional, if_neg (by omega), if_pos short]
    rfl
  · exact Nat.le_trans (Nat.le_of_lt few) (Nat.pow_le_pow_right (by decide) width)
  · simp only [decimal, pointed, List.length_singleton, Option.getD_none]
    omega

theorem writes_inside (numeric : AllDigits digits) (noZero : digits.head? ≠ some '0')
    (few : ofDigits digits ≤ 10 ^ 17) (above : 0 < point) (long : point.toNat < digits.length) :
    ∃ numeral, Writes numeral negative (NumberStyle.document.positional digits point)
      (pointed digits point) := by
  have value : ofDigits (digits.take point.toNat ++ digits.drop point.toNat) = ofDigits digits := by
    rw [List.take_append_drop]
  have behind : digits.drop point.toNat ≠ [] := by simpa using long
  refine ⟨⟨negative, digits.take point.toNat, digits.drop point.toNat, none⟩,
    ⟨⟨?_, ?_, fun digit member => numeric digit (List.mem_of_mem_take member),
      fun digit member => numeric digit (List.mem_of_mem_drop member)⟩, rfl, ?_, .inl behind, ?_,
      exists_withZeros 0 ?_ ?_⟩⟩
  · simp only [ne_eq, List.take_eq_nil_iff, not_or]
    exact ⟨by omega, List.ne_nil_of_length_pos (by omega)⟩
  · rw [List.head?_take, if_neg (by omega)]
    exact fun zero => noZero zero.1
  · rw [fractionText_of_nonempty behind, NumberStyle.positional, if_neg (by omega),
      if_neg (by omega)]
    simp [powerText]
  · exact Nat.le_trans (Nat.le_of_eq value) few
  · rw [Nat.pow_zero, Nat.mul_one]
    exact value
  · simp only [decimal, pointed, List.length_drop, Option.getD_none]
    omega

theorem writes_scientific (numeric : AllDigits digits) (nonempty : digits ≠ [])
    (few : ofDigits digits ≤ 10 ^ 17) :
    ∃ numeral, Writes numeral negative (NumberStyle.scientific digits (point - 1))
      (pointed digits point) := by
  have value : ofDigits (digits.take 1 ++ digits.drop 1) = ofDigits digits := by
    rw [List.take_append_drop]
  have size := List.length_pos_iff.mpr nonempty
  refine ⟨⟨negative, digits.take 1, digits.drop 1, some (point - 1)⟩,
    ⟨⟨by simp [nonempty], by simp, fun digit member => numeric digit (List.mem_of_mem_take member),
      fun digit member => numeric digit (List.mem_of_mem_drop member)⟩, rfl, ?_, .inr (by simp), ?_,
      exists_withZeros 0 ?_ ?_⟩⟩
  · unfold NumberStyle.scientific fractionText powerText
    simp only [List.append_assoc]
    rfl
  · exact Nat.le_trans (Nat.le_of_eq value) few
  · rw [Nat.pow_zero, Nat.mul_one]
    exact value
  · simp only [decimal, pointed, List.length_drop, Option.getD_some]
    omega

end Digits

theorem kept_eq_decimal {numeral : Numeral} (few : numeral.decimal.digits ≤ 10 ^ 17) :
    numeral.kept = numeral.decimal :=
  numeral.kept_of_fits (Nat.lt_of_le_of_lt few (by decide))

/-- The digits of a decimal are written without the zeros behind them, with the point or the power
where they belong. -/
theorem exists_writes_decimal (negative : Bool) {decimal : Decimal} (positive : 0 < decimal.digits)
    (few : decimal.digits ≤ 10 ^ 17) :
    let digits := significant (natural decimal.digits)
    let point := decimal.exponent + (natural decimal.digits).length
    (∃ numeral, Writes numeral negative
      (if NumberStyle.document.isPositional (point - 1) then
        NumberStyle.document.positional digits point
        else NumberStyle.scientific digits (point - 1)) (pointed digits point)) ∧
      ∃ zeros, decimal = (pointed digits point).withZeros zeros := by
  intro digits point
  obtain ⟨zeros, split⟩ := exists_zeros (natural decimal.digits)
  have value : decimal.digits = ofDigits digits * 10 ^ zeros := by
    rw [← ofDigits_append_zeros, ← split, ofDigits_natural]
  have length : (natural decimal.digits).length = digits.length + zeros := by
    conv_lhs => rw [split]
    rw [List.length_append, List.length_replicate]
  have numeric : AllDigits digits := by
    have all := (natural_digits decimal.digits).2
    rw [split] at all
    exact (List.forall_mem_append.mp all).1
  have nonempty : digits ≠ [] := by
    intro none
    rw [none, ofDigits, Nat.ofDigitChars_nil, Nat.zero_mul] at value
    omega
  have noZero : digits.head? ≠ some '0' := by
    have first := head_natural_ne positive
    rw [split] at first
    obtain ⟨digit, others, same⟩ := List.exists_cons_of_ne_nil nonempty
    rw [same]
    change (digits ++ _).head? ≠ _ at first
    rw [same] at first
    exact first
  have small : ofDigits digits ≤ 10 ^ 17 := by
    rw [value] at few
    exact Nat.le_trans (Nat.le_mul_of_pos_right _ (Nat.pow_pos (by decide))) few
  refine ⟨?_, exists_withZeros zeros value ?_⟩
  · split_ifs with positional
    · have near : point ≤ 16 := by
        simp only [NumberStyle.document, Bool.and_eq_true, decide_eq_true_eq] at positional
        omega
      obtain above | below := Int.lt_or_le 0 point
      · obtain inside | whole := Nat.lt_or_ge point.toNat digits.length
        · exact writes_inside negative numeric noZero small above inside
        · exact writes_whole negative numeric nonempty noZero above whole near
      · exact writes_below_one negative numeric nonempty small below
    · exact writes_scientific negative numeric nonempty small
  · simp only [pointed, point, length]
    omega

theorem exists_writes (negative : Bool) {magnitude : Nat} (finite : magnitude < Binary64.infinite) :
    ∃ numeral decimal, Writes numeral negative (NumberStyle.document.unsigned magnitude) decimal ∧
      decimal.magnitude = magnitude ∧ decimal.AtMostLargest := by
  unfold NumberStyle.unsigned
  by_cases zero : magnitude = 0
  · subst zero
    have digit : AllDigits ['0'] := List.forall_mem_singleton.mpr rfl
    refine ⟨⟨negative, ['0'], ['0'], none⟩, ⟨0, 0⟩,
      ⟨⟨by simp, by simp, digit, digit⟩, rfl, rfl, .inl (by simp),
      Nat.zero_le _, ⟨1, rfl⟩⟩, by decide +kernel, by rw [Decimal.AtMostLargest]; decide +kernel⟩
  · have positive := Nat.pos_of_ne_zero zero
    have reads := Binary64.magnitude_shortest .even magnitude
    have atMost := Binary64.shortest_atMostLargest finite
    obtain ⟨⟨numeral, writes⟩, zeros, same⟩ := exists_writes_decimal negative
      (Binary64.digits_shortest_pos .even positive) (Binary64.digits_shortest_le .even positive)
    rw [if_neg zero]
    refine ⟨numeral, _, writes, ?_, ?_⟩
    · rw [← Decimal.magnitude_withZeros _ zeros, ← same, reads]
    · rw [← Decimal.atMostLargest_withZeros _ zeros, ← same]
      exact atMost

end Json.Numeral

namespace Binary64

open Json

theorem ofMagnitude_magnitude (number : Binary64) :
    ofMagnitude number.isNegative number.magnitude = number := by
  obtain ⟨bits⟩ := number
  have size := bits.toNat_lt
  have value :
      (if isNegative ⟨bits⟩ = true then Nat.pow 2 63 + magnitude ⟨bits⟩ else magnitude ⟨bits⟩) =
      bits.toNat := by
    simp only [isNegative, magnitude, decide_eq_true_eq, Nat.pow_eq] at *
    split <;> omega
  rw [ofMagnitude, value, UInt64.ofNat_toNat]

theorem magnitude_ofMagnitude (negative : Bool) {magnitude : Nat} (finite : magnitude < infinite) :
    (ofMagnitude negative magnitude).magnitude = magnitude := by
  have top : infinite < 2 ^ 63 := by decide
  simp only [ofMagnitude, Binary64.magnitude, UInt64.toNat_ofNat', Nat.pow_eq]
  split <;> omega

/-- The number that JSON reads where it wrote this one. -/
def reread (number : Binary64) : Binary64 :=
  ((scanNumeral (NumberStyle.document.write number)).bind (·.1.float?)).getD number

/-- The number is written as a short decimal: all of its digits are below `2 ^ 53` as one number,
and the power of ten behind them is `10 ^ 22` at most, or `10 ^ -22` at least. -/
def IsShort (number : Binary64) : Prop :=
  ∃ numeral, scanNumeral (NumberStyle.document.write number) = some (numeral, []) ∧
    numeral.decimal.IsShort

theorem endsNumber_nil : EndsNumber [] := fun _ head => nomatch head

/-- A finite number is written as a numeral, and read as a finite number, which is the same if the
numeral is short. -/
theorem exists_numeral {number : Binary64} (finite : number.isFinite = true) : ∃ numeral : Numeral,
    numeral.IsWritten ∧ NumberStyle.document.write number = numeral.text ∧
      numeral.value? = some (.float number.reread) ∧ number.reread.isFinite = true ∧
      (number.IsShort → number.reread = number) := by
  obtain ⟨numeral, decimal, writes, reads, atMost⟩ :=
    Numeral.exists_writes number.isNegative (of_decide_eq_true finite)
  obtain ⟨zeros, same⟩ := writes.value
  have text : NumberStyle.document.write number = numeral.text := by
    rw [NumberStyle.write, Numeral.text, writes.sign, writes.text]
  have scanned : scanNumeral (NumberStyle.document.write number) = some (numeral, []) := by
    have whole := scanNumeral_text writes.written endsNumber_nil
    rwa [List.append_nil, ← text] at whole
  have computed : numeral.decimal.computed < infinite := by
    refine Decimal.computed_lt_infinite writes.few ?_
    rw [same]
    exact (Decimal.atMostLargest_withZeros decimal zeros).mpr atMost
  have read : numeral.float? = some (.ofMagnitude number.isNegative numeral.decimal.computed) := by
    rw [Numeral.float?, Numeral.kept_eq_decimal writes.few, writes.sign]
    exact if_pos computed
  have again : number.reread = .ofMagnitude number.isNegative numeral.decimal.computed := by
    rw [reread, scanned, Option.bind_some, read, Option.getD_some]
  have notInteger : numeral.integer? = none := by
    rw [Numeral.integer?, if_pos writes.notInteger]
  refine ⟨numeral, writes.written, text, ?_, ?_, ?_⟩
  · rw [Numeral.value?, notInteger, read, again]
    rfl
  · rw [again, isFinite, magnitude_ofMagnitude _ computed]
    exact decide_eq_true computed
  · rintro ⟨other, otherScanned, short⟩
    cases scanned.symm.trans otherScanned
    rw [again, Decimal.computed_of_short short, same, Decimal.magnitude_withZeros, reads,
      ofMagnitude_magnitude]

end Binary64

end FilterQuery
