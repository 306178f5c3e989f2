import FilterQuery.Binary64.Arithmetic
import FilterQuery.Json.Lexeme

/-!
The number that a numeral denotes. An integer is exact from `-2 ^ 63` to `2 ^ 64 - 1`. Every other
number is a float computed from the leading digits that fit in 64 bits and the power of ten behind
them, so its last bit can differ from that of the nearest float; one too large for a float denotes
nothing. Main statement: digits that fit are all kept.
-/

namespace FilterQuery.Json

/-- The number with digits written behind it for as long as it fits in 64 bits, and how many digits
were left out. -/
def appendDigits (number : Nat) : List Char → Nat × Nat
  | [] => (number, 0)
  | digit :: rest =>
      let longer := 10 * number + (digit.toNat - '0'.toNat)
      if longer < Nat.pow 2 64 then appendDigits longer rest
      else (number, rest.length + 1)

namespace Numeral

-- Digits left out count as zeros. The fraction is tried even where the whole part did not fit: a
-- zero behind the point can fit where a nine in front of it did not.
def kept (numeral : Numeral) : Decimal :=
  let (whole, wholeRest) := appendDigits 0 numeral.whole
  let (digits, fractionRest) := appendDigits whole numeral.fraction
  ⟨digits, numeral.power.getD 0 + wholeRest + fractionRest - numeral.fraction.length⟩

-- A negative zero stays a float: no integer keeps its sign.
def integer? (numeral : Numeral) : Option Int :=
  let digits := Text.ofDigits numeral.whole
  if numeral.fraction ≠ [] ∨ numeral.power ≠ none then none
  else if numeral.negative then
    if 0 < digits ∧ digits ≤ Nat.pow 2 63 then some (-digits) else none
  else if digits < Nat.pow 2 64 then some digits
  else none

def float? (numeral : Numeral) : Option Binary64 :=
  let magnitude := numeral.kept.computed
  if magnitude < Binary64.infinite then some (.ofMagnitude numeral.negative magnitude) else none

def value? (numeral : Numeral) : Option Json :=
  match numeral.integer? with
  | some number => some (.integer number)
  | none => numeral.float?.map .float

end Numeral

theorem le_ofDigitChars (digits : List Char) (number : Nat) :
    number ≤ Nat.ofDigitChars 10 digits number := by
  induction digits generalizing number with
  | nil => exact Nat.le_refl _
  | cons digit rest ih =>
      have := ih (10 * number + (digit.toNat - '0'.toNat))
      rw [Nat.ofDigitChars_cons]
      omega

theorem appendDigits_of_fits (digits : List Char) (number : Nat)
    (fits : Nat.ofDigitChars 10 digits number < Nat.pow 2 64) :
    appendDigits number digits = (Nat.ofDigitChars 10 digits number, 0) := by
  induction digits generalizing number with
  | nil => rfl
  | cons digit rest ih =>
      rw [Nat.ofDigitChars_cons] at fits ⊢
      have longerFits := Nat.lt_of_le_of_lt (le_ofDigitChars rest _) fits
      rw [appendDigits, if_pos longerFits, ih _ fits]

theorem Numeral.kept_of_fits (numeral : Numeral)
    (fits : Text.ofDigits (numeral.whole ++ numeral.fraction) < Nat.pow 2 64) :
    numeral.kept = ⟨Text.ofDigits (numeral.whole ++ numeral.fraction),
      numeral.power.getD 0 - numeral.fraction.length⟩ := by
  rw [Text.ofDigits, Nat.ofDigitChars_append] at fits ⊢
  have wholeFits := Nat.lt_of_le_of_lt (le_ofDigitChars _ _) fits
  simp only [Numeral.kept, appendDigits_of_fits _ _ wholeFits, appendDigits_of_fits _ _ fits]
  simp

end FilterQuery.Json
