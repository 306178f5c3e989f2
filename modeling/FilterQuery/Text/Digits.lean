/-!
Whole numbers as decimal text, and back; and numbers written in hexadecimal. Main statement: what is
written in decimal reads back, with zeros in front or without.
-/

namespace FilterQuery.Text

def natural (number : Nat) : List Char :=
  Nat.toDigits 10 number

def integer (number : Int) : List Char :=
  (if number < 0 then ['-'] else []) ++ natural number.natAbs

/-- At least `width` digits; a longer number keeps all of its own. -/
def padded (width number : Nat) : List Char :=
  List.replicate (width - (natural number).length) '0' ++ natural number

def naturalText (number : Nat) : String :=
  String.ofList (natural number)

def ofDigits (digits : List Char) : Nat :=
  Nat.ofDigitChars 10 digits 0

def number? (text : List Char) : Option Nat :=
  if text.all Char.isDigit then some (ofDigits text) else none

def hexDigit? (char : Char) : Option Nat :=
  if '0' ≤ char ∧ char ≤ '9' then some (char.toNat - '0'.toNat)
  else if 'a' ≤ char ∧ char ≤ 'f' then some (char.toNat - 'a'.toNat + 10)
  else if 'A' ≤ char ∧ char ≤ 'F' then some (char.toNat - 'A'.toNat + 10)
  else none

def hexNumber? (digits : List Char) : Option Nat :=
  digits.foldlM (fun number char => (hexDigit? char).map (16 * number + ·)) 0

theorem ofDigits_natural (number : Nat) : ofDigits (natural number) = number :=
  Nat.ofDigitChars_toDigits (by decide) (by decide)

theorem ofDigits_zeros (count : Nat) (digits : List Char) :
    ofDigits (List.replicate count '0' ++ digits) = ofDigits digits := by
  induction count with
  | zero => rfl
  | succ count ih => exact ih

theorem ofDigits_padded (width number : Nat) : ofDigits (padded width number) = number := by
  rw [padded, ofDigits_zeros, ofDigits_natural]

theorem isDigit_of_mem_padded (width number : Nat) :
    ∀ char ∈ padded width number, char.isDigit = true := by
  intro char held
  rcases List.mem_append.mp held with zero | digit
  · rw [List.eq_of_mem_replicate zero]
    rfl
  · exact Nat.isDigit_of_mem_toDigits (by decide) (by decide) digit

theorem number?_padded (width number : Nat) : number? (padded width number) = some number := by
  rw [number?, if_pos (List.all_eq_true.mpr (isDigit_of_mem_padded width number)), ofDigits_padded]

end FilterQuery.Text
