import FilterQuery.Text.Digits
import Mathlib.Data.List.TakeDrop

/-!
Numbers written with a fixed number of digits. Digits of one width and the number that they stand
for determine each other. Main statement: a text is read as a number exactly when it is that number,
padded to the width of the text.
-/

namespace FilterQuery.Text

def AllDigits (text : List Char) : Prop :=
  ∀ char ∈ text, char.isDigit = true

def digit (char : Char) : Nat :=
  char.toNat - 48

theorem isDigit_iff {char : Char} : char.isDigit = true ↔ 48 ≤ char.toNat ∧ char.toNat ≤ 57 :=
  Char.isDigit_iff_toNat

theorem digit_lt {char : Char} (numeric : char.isDigit = true) : digit char < 10 := by
  have range := isDigit_iff.mp numeric
  rw [digit]
  omega

theorem digit_inj {left right : Char} (numeric : left.isDigit = true)
    (otherNumeric : right.isDigit = true) (same : digit left = digit right) : left = right := by
  have range := isDigit_iff.mp numeric
  have otherRange := isDigit_iff.mp otherNumeric
  rw [digit, digit] at same
  exact Char.toNat_inj.mp (by omega)

theorem AllDigits.append {left right : List Char} (numeric : AllDigits left)
    (otherNumeric : AllDigits right) :
    AllDigits (left ++ right) :=
  List.forall_mem_append.mpr ⟨numeric, otherNumeric⟩

theorem span_run {test : Char → Bool} {run rest : List Char} (all : ∀ char ∈ run, test char = true)
    (ends : ∀ next ∈ rest.head?, test next = false) : (run ++ rest).span test = (run, rest) := by
  have apart : rest.takeWhile test = [] ∧ rest.dropWhile test = rest := by
    cases rest with
    | nil => exact ⟨rfl, rfl⟩
    | cons next rest => simp [ends next rfl]
  rw [List.span_eq_takeWhile_dropWhile, List.takeWhile_append_of_pos all,
    List.dropWhile_append_of_pos all, apart.1, apart.2, List.append_nil]

theorem ofDigits_append (left right : List Char) :
    ofDigits (left ++ right) = Nat.pow 10 right.length * ofDigits left + ofDigits right := by
  rw [ofDigits, Nat.ofDigitChars_append]
  exact Nat.ofDigitChars_eq_ofDigitChars_zero

theorem ofDigits_cons (char : Char) (rest : List Char) :
    ofDigits (char :: rest) = Nat.pow 10 rest.length * digit char + ofDigits rest := by
  have single : ofDigits [char] = digit char := by simp [ofDigits, Nat.ofDigitChars_cons, digit]
  rw [← single]
  exact ofDigits_append [char] rest

theorem ofDigits_lt {text : List Char} (numeric : AllDigits text) :
    ofDigits text < Nat.pow 10 text.length := by
  induction text with
  | nil => decide
  | cons char rest ih =>
      obtain ⟨first, others⟩ := List.forall_mem_cons.mp numeric
      have low := ih others
      have high := Nat.mul_le_mul_left (Nat.pow 10 rest.length) (Nat.le_of_lt_succ (digit_lt first))
      have size : Nat.pow 10 (char :: rest).length = Nat.pow 10 rest.length * 10 := rfl
      rw [ofDigits_cons, size]
      omega

theorem ofDigits_inj {left right : List Char} (sameLength : left.length = right.length)
    (numeric : AllDigits left) (otherNumeric : AllDigits right)
    (same : ofDigits left = ofDigits right) :
    left = right := by
  induction left generalizing right with
  | nil => exact (List.length_eq_zero_iff.mp sameLength.symm).symm
  | cons char rest ih =>
      cases right with
      | nil => cases sameLength
      | cons other others =>
          obtain ⟨first, inRest⟩ := List.forall_mem_cons.mp numeric
          obtain ⟨otherFirst, inOthers⟩ := List.forall_mem_cons.mp otherNumeric
          have sameWidth := Nat.succ.inj sameLength
          have low := ofDigits_lt inRest
          have otherLow := ofDigits_lt inOthers
          rw [ofDigits_cons, ofDigits_cons, ← sameWidth] at same
          rw [← sameWidth] at otherLow
          have sameHigh := congrArg (· / Nat.pow 10 rest.length) same
          have sameLow := congrArg (· % Nat.pow 10 rest.length) same
          simp only [Nat.mul_add_div (Nat.zero_lt_of_lt low), Nat.mul_add_mod, Nat.div_eq_of_lt low,
            Nat.div_eq_of_lt otherLow, Nat.mod_eq_of_lt low, Nat.mod_eq_of_lt otherLow]
              at sameHigh sameLow
          rw [digit_inj first otherFirst sameHigh, ih sameWidth inRest inOthers sameLow]

theorem length_padded {width number : Nat} (positive : 0 < width)
    (fits : number < Nat.pow 10 width) :
    (padded width number).length = width := by
  have short : (natural number).length ≤ width :=
    (Nat.length_toDigits_le_iff (by decide) positive).mpr fits
  rw [padded, List.length_append, List.length_replicate, Nat.sub_add_cancel short]

theorem padded_ofDigits {text : List Char} (nonempty : text ≠ []) (numeric : AllDigits text) :
    padded text.length (ofDigits text) = text :=
  ofDigits_inj (length_padded (List.length_pos_iff.mpr nonempty) (ofDigits_lt numeric))
    (isDigit_of_mem_padded _ _) numeric (ofDigits_padded _ _)

theorem number?_eq_some_iff {text : List Char} (nonempty : text ≠ []) (number : Nat) :
    number? text = some number ↔
      number < Nat.pow 10 text.length ∧ padded text.length number = text := by
  constructor
  · intro read
    rw [number?, Option.ite_none_right_eq_some, List.all_eq_true] at read
    obtain ⟨numeric, same⟩ := read
    cases same
    exact ⟨ofDigits_lt numeric, padded_ofDigits nonempty numeric⟩
  · rintro ⟨_, same⟩
    rw [← same, number?_padded]

theorem padded_add {high low number : Nat} (highPositive : 0 < high) (lowPositive : 0 < low)
    (fits : number < Nat.pow 10 (high + low)) :
    padded (high + low) number =
      padded high (number / Nat.pow 10 low) ++ padded low (number % Nat.pow 10 low) := by
  have split : Nat.pow 10 (high + low) = Nat.pow 10 high * Nat.pow 10 low := Nat.pow_add 10 high low
  have positive : 0 < Nat.pow 10 low := Nat.pow_pos (by decide)
  have highFits : number / Nat.pow 10 low < Nat.pow 10 high := by
    rw [Nat.div_lt_iff_lt_mul positive, ← split]
    exact fits
  have lowLength := length_padded lowPositive (Nat.mod_lt number positive)
  refine ofDigits_inj ?_ (isDigit_of_mem_padded _ _)
    (AllDigits.append (isDigit_of_mem_padded _ _) (isDigit_of_mem_padded _ _)) ?_
  · rw [List.length_append, length_padded (by omega) fits,
      length_padded highPositive highFits, lowLength]
  · rw [ofDigits_append, lowLength, ofDigits_padded, ofDigits_padded, ofDigits_padded,
      Nat.div_add_mod]

end FilterQuery.Text
