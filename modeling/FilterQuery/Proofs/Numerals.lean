import FilterQuery.Json.Number
import FilterQuery.Proofs.PaddedNumbers

/-!
Numerals as text: a minus perhaps, digits, a fraction perhaps, and a power of ten perhaps. Main
statement: a numeral is scanned as it is written, up to whatever follows it.
-/

namespace FilterQuery.Text

theorem natural_digits (number : Nat) : natural number ≠ [] ∧ AllDigits (natural number) :=
  ⟨List.ne_nil_of_length_pos Nat.length_toDigits_pos,
    fun _ => Nat.isDigit_of_mem_toDigits (by decide) (by decide)⟩

theorem head_natural_ne {number : Nat} (positive : 0 < number) :
    (natural number).head? ≠ some '0' := by
  have value := ofDigits_natural number
  have numeric := (natural_digits number).2
  have size := fun {width : Nat} => @Nat.length_toDigits_le_iff 10 number width (by decide)
  change (natural number).head? = some '0' → False
  rw [show Nat.toDigits 10 number = natural number from rfl] at size
  cases digits : natural number with
  | nil => simp
  | cons digit others =>
      rintro head
      cases head
      rw [digits] at value numeric size
      have rest : ofDigits others = number := value
      have small := ofDigits_lt (List.forall_mem_cons.mp numeric).2
      cases others with
      | nil => simp [ofDigits] at rest; omega
      | cons second more =>
          have wide : 0 < (second :: more).length := Nat.succ_pos _
          have short := (size wide).mpr (rest ▸ small)
          exact absurd short (by simp)

end FilterQuery.Text

namespace FilterQuery.Json

/-- A number that comes before the text goes no further. -/
def EndsNumber (rest : List Char) : Prop :=
  ∀ next ∈ rest.head?, next.isDigit = false ∧ next ≠ '.' ∧ next ≠ 'e' ∧ next ≠ 'E'

namespace Numeral

/-- Digits stand where a text needs them, and no zero too many in front. -/
structure IsWritten (numeral : Numeral) : Prop where
  nonempty : numeral.whole ≠ []
  noLeadingZero : ¬ (numeral.whole.head? = some '0' ∧ 1 < numeral.whole.length)
  whole : Text.AllDigits numeral.whole
  fraction : Text.AllDigits numeral.fraction

def fractionText (fraction : List Char) : List Char :=
  if fraction.isEmpty then [] else '.' :: fraction

def powerText : Option Int → List Char
  | none => []
  | some power => ['e', if power < 0 then '-' else '+'] ++ Text.natural power.natAbs

def text (numeral : Numeral) : List Char :=
  (if numeral.negative then ['-'] else []) ++
    (numeral.whole ++ (fractionText numeral.fraction ++ powerText numeral.power))

def decimal (numeral : Numeral) : Decimal :=
  ⟨Text.ofDigits (numeral.whole ++ numeral.fraction),
    numeral.power.getD 0 - numeral.fraction.length⟩

end Numeral

theorem scanDigits?_append {digits rest : List Char} (nonempty : digits ≠ [])
    (numeric : Text.AllDigits digits) (ends : ∀ next ∈ rest.head?, next.isDigit = false) :
    scanDigits? (digits ++ rest) = some (digits, rest) := by
  rw [scanDigits?, Text.span_run numeric ends]
  cases digits with
  | nil => exact absurd rfl nonempty
  | cons digit others => rfl

theorem scanPower_written (power : Int) {rest : List Char}
    (ends : ∀ next ∈ rest.head?, next.isDigit = false) :
    scanPower ((if power < 0 then '-' else '+') :: (Text.natural power.natAbs ++ rest)) =
      some (power, rest) := by
  obtain ⟨nonempty, numeric⟩ := Text.natural_digits power.natAbs
  have scanned := scanDigits?_append nonempty numeric ends
  split
  · simp only [scanPower, scanned, Option.map_some, Text.ofDigits_natural]
    congr
    omega
  · simp only [scanPower, scanned, Option.map_some, Text.ofDigits_natural]
    congr
    omega

theorem scanExponent_written (power : Option Int) {rest : List Char} (ends : EndsNumber rest) :
    scanExponent (Numeral.powerText power ++ rest) = some (power, rest) := by
  cases power with
  | none =>
      rw [Numeral.powerText, List.nil_append]
      unfold scanExponent
      split
      · exact absurd rfl (ends 'e' rfl).2.2.1
      · exact absurd rfl (ends 'E' rfl).2.2.2
      · rfl
  | some power =>
      have scanned := scanPower_written power fun next head => (ends next head).1
      simp only [Numeral.powerText, List.cons_append, List.nil_append, scanExponent, scanned,
        Option.map_some]

theorem powerText_ends (power : Option Int) {rest : List Char} (ends : EndsNumber rest) :
    ∀ next ∈ (Numeral.powerText power ++ rest).head?, next.isDigit = false ∧ next ≠ '.' := by
  cases power with
  | none => exact fun next head => ⟨(ends next head).1, (ends next head).2.1⟩
  | some power =>
      rintro next head
      cases head
      decide

theorem scanFraction_written {fraction rest : List Char} (numeric : Text.AllDigits fraction)
    (ends : ∀ next ∈ rest.head?, next.isDigit = false ∧ next ≠ '.') :
    scanFraction (Numeral.fractionText fraction ++ rest) = some (fraction, rest) := by
  cases fraction with
  | nil =>
      rw [Numeral.fractionText, List.isEmpty_nil, if_pos rfl, List.nil_append]
      unfold scanFraction
      split
      · exact absurd rfl (ends '.' rfl).2
      · rfl
  | cons digit others =>
      exact scanDigits?_append (List.cons_ne_nil _ _) numeric fun next head => (ends next head).1

theorem fractionText_ends (fraction : List Char) {rest : List Char}
    (ends : ∀ next ∈ rest.head?, next.isDigit = false) :
    ∀ next ∈ (Numeral.fractionText fraction ++ rest).head?, next.isDigit = false := by
  cases fraction with
  | nil => exact ends
  | cons digit others =>
      rintro next head
      cases head
      rfl

theorem scanUnsigned_written {numeral : Numeral} (written : numeral.IsWritten) {rest : List Char}
    (ends : EndsNumber rest) :
    scanUnsigned numeral.negative (numeral.whole ++ (Numeral.fractionText numeral.fraction ++
      Numeral.powerText numeral.power) ++ rest) = some (numeral, rest) := by
  have powerEnds := powerText_ends numeral.power ends
  have whole := scanDigits?_append written.nonempty written.whole
    (fractionText_ends numeral.fraction fun next head => (powerEnds next head).1)
  have fraction := scanFraction_written written.fraction powerEnds
  have exponent := scanExponent_written numeral.power ends
  simp only [scanUnsigned, List.append_assoc, whole, fraction, exponent, Option.bind_eq_bind,
    Option.bind_some, if_neg written.noLeadingZero]

theorem not_minus {numeral : Numeral} (written : numeral.IsWritten) (rest text : List Char) :
    numeral.whole ++ rest ≠ '-' :: text := by
  have numeric := written.whole
  cases digits : numeral.whole with
  | nil => exact absurd digits written.nonempty
  | cons digit others =>
      rintro same
      cases List.head_eq_of_cons_eq same
      rw [digits] at numeric
      cases numeric '-' List.mem_cons_self

theorem scanNumeral_text {numeral : Numeral} (written : numeral.IsWritten) {rest : List Char}
    (ends : EndsNumber rest) :
    scanNumeral (numeral.text ++ rest) = some (numeral, rest) := by
  have scanned := scanUnsigned_written written ends
  rw [Numeral.text]
  cases sign : numeral.negative with
  | true =>
      rw [sign] at scanned
      exact scanned
  | false =>
      -- Without a minus the first digit must not be taken for one.
      rw [sign] at scanned
      rw [if_neg Bool.false_ne_true, List.nil_append, ← scanned]
      unfold scanNumeral
      split
      · rename_i same
        exact absurd (List.append_assoc _ _ _ ▸ same) (not_minus written _ _)
      · rfl

/-! Integers. -/

def integerNumeral (value : Int) : Numeral :=
  ⟨value < 0, Text.natural value.natAbs, [], none⟩

theorem text_integerNumeral (value : Int) : (integerNumeral value).text = Text.integer value := by
  have none : Numeral.fractionText [] ++ Numeral.powerText none = [] := rfl
  simp only [integerNumeral, Numeral.text, Text.integer, none, List.append_nil, decide_eq_true_eq]

theorem isWritten_integerNumeral (value : Int) : (integerNumeral value).IsWritten := by
  obtain ⟨nonempty, numeric⟩ := Text.natural_digits value.natAbs
  refine ⟨nonempty, ?_, numeric, fun _ none => nomatch none⟩
  obtain zero | positive := Nat.eq_zero_or_pos value.natAbs
  · simp only [integerNumeral, zero]
    decide
  · exact fun leading => Text.head_natural_ne positive leading.1

theorem value?_integerNumeral {value : Int} (low : -Int.pow 2 63 ≤ value)
    (high : value < Int.pow 2 64) :
    (integerNumeral value).value? = some (.integer value) := by
  have half : Int.pow 2 63 = (Nat.pow 2 63 : Nat) := rfl
  have whole : Int.pow 2 64 = (Nat.pow 2 64 : Nat) := rfl
  rw [half] at low
  rw [whole] at high
  have exact : (integerNumeral value).integer? = some value := by
    rw [Numeral.integer?, if_neg (by simp [integerNumeral])]
    simp only [integerNumeral, Text.ofDigits_natural, decide_eq_true_eq]
    split
    · rw [if_pos ⟨by omega, by omega⟩]
      congr
      omega
    · rw [if_pos (by omega)]
      congr
      omega
  rw [Numeral.value?, exact]

end FilterQuery.Json
