import FilterQuery.Proofs.PaddedNumbers

/-!
Texts compared byte by byte. Main statement: numbers of one width in front of two texts are compared
before the rest is.
-/

namespace FilterQuery

theorem compare_combined {size left right low high : Int} (lowFits : 0 ≤ low ∧ low < size)
    (highFits : 0 ≤ high ∧ high < size) :
    compare (left * size + low) (right * size + high) =
      (compare left right).then (compare low high) := by
  rcases Int.lt_trichotomy left right with less | rfl | more
  · have apart :=
      Int.mul_le_mul_of_nonneg_right (show left + 1 ≤ right from less) (show 0 ≤ size by omega)
    have lower : left * size + low < right * size + high := by
      rw [Int.add_mul, Int.one_mul] at apart
      omega
    rw [Int.compare_eq_lt.mpr less, Int.compare_eq_lt.mpr lower, Ordering.lt_then]
  · rw [Int.compare_eq_eq.mpr rfl, Ordering.eq_then]
    simp only [Int.compare_eq_ite_lt, Int.add_lt_add_iff_left]
  · have apart :=
      Int.mul_le_mul_of_nonneg_right (show right + 1 ≤ left from more) (show 0 ≤ size by omega)
    have higher : right * size + high < left * size + low := by
      rw [Int.add_mul, Int.one_mul] at apart
      omega
    rw [Int.compare_eq_gt.mpr more, Int.compare_eq_gt.mpr higher, Ordering.gt_then]

theorem compare_cast (left right : Nat) : compare (left : Int) right = compare left right := by
  simp only [Int.compare_eq_ite_lt, Nat.compare_eq_ite_lt, Int.ofNat_lt]

theorem compare_combined_nat {size left right low high : Nat} (lowFits : low < size)
    (highFits : high < size) :
    compare (left * size + low) (right * size + high) =
      (compare left right).then (compare low high) := by
  have combined : compare ((left : Int) * size + low) (right * size + high) =
      (compare (left : Int) right).then (compare (low : Int) high) :=
    compare_combined (by omega) (by omega)
  rw [compare_cast, compare_cast] at combined
  rw [← combined, ← compare_cast]
  simp only [Int.natCast_add, Int.natCast_mul]

namespace Text

theorem compare_append {Item : Type} [Ord Item] {left right : List Item}
    (same : left.length = right.length) (afterLeft afterRight : List Item) :
    compare (left ++ afterLeft) (right ++ afterRight) =
      (compare left right).then (compare afterLeft afterRight) := by
  induction left generalizing right with
  | nil =>
      cases right with
      | nil => rfl
      | cons item rest => cases same
  | cons item rest ih =>
      cases right with
      | nil => cases same
      | cons other others =>
          simp only [List.cons_append, List.compare_cons_cons, ih (Nat.succ.inj same),
            Ordering.then_assoc]

/-! Bytes. -/

def bytes (chars : List Char) : List UInt8 :=
  chars.flatMap String.utf8EncodeChar

/-- The order of the bytes; a text comes before those that it starts. -/
def compareChars (left right : List Char) : Ordering :=
  compare (bytes left) (bytes right)

def compareBytes (left right : String) : Ordering :=
  compare left.toUTF8.data.toList right.toUTF8.data.toList

theorem compareBytes_ofList (left right : List Char) :
    compareBytes (String.ofList left) (String.ofList right) = compareChars left right := by
  have encoded (chars : List Char) : (String.ofList chars).toUTF8.data.toList = bytes chars := by
    rw [String.toUTF8_eq_toByteArray, String.toByteArray_ofList]
    exact List.toList_data_toByteArray
  rw [compareBytes, encoded, encoded, compareChars]

theorem compareChars_append {left right : List Char}
    (same : (bytes left).length = (bytes right).length) (afterLeft afterRight : List Char) :
    compareChars (left ++ afterLeft) (right ++ afterRight) =
      (compareChars left right).then (compareChars afterLeft afterRight) := by
  rw [compareChars, bytes, bytes, List.flatMap_append, List.flatMap_append]
  exact compare_append same _ _

theorem compareChars_same (chars left right : List Char) :
    compareChars (chars ++ left) (chars ++ right) = compareChars left right := by
  have equal : compareChars chars chars = .eq := Std.LawfulEqOrd.compare_eq_iff_eq.mpr rfl
  rw [compareChars_append rfl, equal, Ordering.eq_then]

theorem utf8EncodeChar_ascii {char : Char} (ascii : char.toNat < 128) :
    String.utf8EncodeChar char = [UInt8.ofNat char.toNat] :=
  if_pos (Nat.le_of_lt_succ ascii)

theorem compareChars_ascii {left right : Char} (ascii : left.toNat < 128)
    (otherAscii : right.toNat < 128) (afterLeft afterRight : List Char) :
    compareChars (left :: afterLeft) (right :: afterRight) =
      (compare left.toNat right.toNat).then (compareChars afterLeft afterRight) := by
  have byte {char : Char} (ascii : char.toNat < 128) :
      (UInt8.ofNat char.toNat).toNat = char.toNat :=
    UInt8.toNat_ofNat_of_lt' (Nat.lt_trans ascii (by decide))
  have first : compare (UInt8.ofNat left.toNat) (UInt8.ofNat right.toNat) =
      compare left.toNat right.toNat := by
    simp only [compare, compareOfLessAndEq, UInt8.lt_iff_toNat_lt, ← UInt8.toNat_inj, byte ascii,
      byte otherAscii]
  simp only [compareChars, bytes, List.flatMap_cons, utf8EncodeChar_ascii ascii,
    utf8EncodeChar_ascii otherAscii, List.singleton_append, List.compare_cons_cons, first]

/-! Digits. -/

theorem ascii_digit {char : Char} (numeric : char.isDigit = true) : char.toNat < 128 :=
  Nat.lt_of_le_of_lt (isDigit_iff.mp numeric).2 (by decide)

theorem length_bytes_digits {chars : List Char} (numeric : AllDigits chars) :
    (bytes chars).length = chars.length := by
  induction chars with
  | nil => rfl
  | cons char rest ih =>
      obtain ⟨first, others⟩ := List.forall_mem_cons.mp numeric
      rw [bytes, List.flatMap_cons, utf8EncodeChar_ascii (ascii_digit first), List.length_append,
        List.length_cons]
      exact (Nat.add_comm _ _).trans (congrArg (· + 1) (ih others))

theorem compare_digit {left right : Char} (numeric : left.isDigit = true)
    (otherNumeric : right.isDigit = true) :
    compare left.toNat right.toNat = compare (digit left) (digit right) := by
  have range := isDigit_iff.mp numeric
  have otherRange := isDigit_iff.mp otherNumeric
  have less : left.toNat < right.toNat ↔ digit left < digit right := by
    rw [digit, digit]
    omega
  have more : right.toNat < left.toNat ↔ digit right < digit left := by
    rw [digit, digit]
    omega
  simp only [Nat.compare_eq_ite_lt, less, more]

theorem compareChars_ofDigits {left right : List Char} (same : left.length = right.length)
    (numeric : AllDigits left) (otherNumeric : AllDigits right) :
    compareChars left right = compare (ofDigits left) (ofDigits right) := by
  induction left generalizing right with
  | nil => 
      cases List.length_eq_zero_iff.mp same.symm
      rfl
  | cons char rest ih =>
      cases right with
      | nil => cases same
      | cons other others =>
          obtain ⟨first, inRest⟩ := List.forall_mem_cons.mp numeric
          obtain ⟨otherFirst, inOthers⟩ := List.forall_mem_cons.mp otherNumeric
          have sameWidth := Nat.succ.inj same
          have low := ofDigits_lt inRest
          have otherLow := ofDigits_lt inOthers
          rw [← sameWidth] at otherLow
          rw [compareChars_ascii (ascii_digit first) (ascii_digit otherFirst),
            compare_digit first otherFirst, ih sameWidth inRest inOthers, ofDigits_cons,
            ofDigits_cons, ← sameWidth, Nat.mul_comm, Nat.mul_comm _ (digit other),
            compare_combined_nat low otherLow]

theorem compareChars_padded {width left right : Nat} (positive : 0 < width)
    (fits : left < Nat.pow 10 width) (otherFits : right < Nat.pow 10 width)
    (afterLeft afterRight : List Char) :
    compareChars (padded width left ++ afterLeft) (padded width right ++ afterRight) =
      (compare left right).then (compareChars afterLeft afterRight) := by
  have same : (padded width left).length = (padded width right).length :=
    (length_padded positive fits).trans (length_padded positive otherFits).symm
  have numeric (number : Nat) : AllDigits (padded width number) :=
    isDigit_of_mem_padded width number
  have sameBytes : (bytes (padded width left)).length = (bytes (padded width right)).length := by
    rw [length_bytes_digits (numeric left), length_bytes_digits (numeric right), same]
  rw [compareChars_append sameBytes, compareChars_ofDigits same (numeric left) (numeric right),
    ofDigits_padded, ofDigits_padded]

theorem compareChars_field {width left right : Nat} (positive : 0 < width)
    (fits : left < Nat.pow 10 width) (otherFits : right < Nat.pow 10 width) (separator : Char)
    (afterLeft afterRight : List Char) :
    compareChars (padded width left ++ separator :: afterLeft)
      (padded width right ++ separator :: afterRight) =
      (compare left right).then (compareChars afterLeft afterRight) := by
  rw [compareChars_padded positive fits otherFits]
  exact congrArg _ (compareChars_same [separator] afterLeft afterRight)

end Text

end FilterQuery
