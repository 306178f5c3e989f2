import FilterQuery.Json.Printer
import FilterQuery.Json.Reader

/-!
Texts between quotes, as JSON prints and reads them. Every character is printed as one mark: as it
is, as a short escape, or as a code unit when it is any other control character. Main statements:
what is printed is scanned as those marks, up to the closing quote, and the marks denote the text.
-/

namespace FilterQuery.Json

def mark (char : Char) : Mark :=
  if char < ' ' ∧ char ∉ ['\x08', '\x0c', '\n', '\r', '\t'] then
    .codeUnit char.toNat else .char char

def marks (text : String) : List Mark :=
  text.toList.map mark

/-- A character is printed as a short escape, as a code unit, or as it is. -/
theorem printedChar_cases (char : Char) :
    (∃ escape, printedChar char = ['\\', escape] ∧ plainEscape? escape = some char ∧ escape ≠ 'u' ∧
        mark char = .char char) ∨
      (printedChar char = ['\\', 'u', '0', '0', hexDigit (char.toNat / 16),
        hexDigit (char.toNat % 16)] ∧
        char < ' ' ∧ mark char = .codeUnit char.toNat) ∨
      (printedChar char = [char] ∧ char ≠ '"' ∧ char ≠ '\\' ∧ ¬ char < ' ' ∧
        mark char = .char char) := by
  by_cases short : char ∈ ['"', '\\', '\x08', '\x0c', '\n', '\r', '\t']
  · simp only [List.mem_cons, List.not_mem_nil, or_false] at short
    rcases short with rfl | rfl | rfl | rfl | rfl | rfl | rfl <;>
      exact .inl ⟨_, rfl, rfl, by decide, rfl⟩
  · simp only [List.mem_cons, List.not_mem_nil, or_false, not_or] at short
    obtain ⟨quote, backslash, backspace, feed, line, back, tab⟩ := short
    by_cases control : char < ' '
    · refine .inr (.inl ⟨?_, control, if_pos ⟨control, by simp [backspace, feed, line, back, tab]⟩⟩)
      simp only [printedChar, quote, backslash, backspace, feed, line, back, tab, control,
        if_true, if_false]
    · refine .inr (.inr ⟨?_, quote, backslash, control, if_neg fun unit => control unit.1⟩)
      simp only [printedChar, quote, backslash, backspace, feed, line, back, tab, control, if_false]

theorem hexNumber?_below_space : ∀ code < 32,
    Text.hexNumber? ['0', '0', hexDigit (code / 16), hexDigit (code % 16)] = some code := by
  decide

theorem toNat_lt_of_lt_space {char : Char} (control : char < ' ') : char.toNat < 32 :=
  UInt32.lt_iff_toNat_lt.mp control

theorem scanText_printedChar (char : Char) (more : List Char) :
    scanText (printedChar char ++ more) = (scanText more).map fun scanned =>
      (mark char :: scanned.1, scanned.2) := by
  obtain ⟨escape, printed, plain, notUnit, marked⟩ | ⟨printed, control, marked⟩ |
    ⟨printed, quote, backslash, control, marked⟩ := printedChar_cases char
  · rw [printed, marked, List.cons_append, List.cons_append, List.nil_append, scanText, plain]
    · cases scanText more <;> rfl
    all_goals simp [notUnit]
  · have code := hexNumber?_below_space char.toNat (toNat_lt_of_lt_space control)
    rw [printed, marked]
    simp only [List.cons_append, List.nil_append, scanText, code, Option.bind_eq_bind,
      Option.bind_some]
    cases scanText more <;> rfl
  · rw [printed, marked, List.cons_append, List.nil_append, scanText, if_neg control]
    · cases scanText more <;> rfl
    all_goals simp [quote, backslash]

theorem scanText_printed (text rest : List Char) :
    scanText (text.flatMap printedChar ++ '"' :: rest) = some (text.map mark, rest) := by
  induction text with
  | nil => rfl
  | cons char others ih =>
      rw [List.flatMap_cons, List.append_assoc, scanText_printedChar, ih]
      rfl

theorem ofMarks?_codeUnit {code : Nat} (low : code < 0xD800) (marks : List Mark) :
    ofMarks? (.codeUnit code :: marks) = (ofMarks? marks).map (Char.ofNat code :: ·) := by
  have high : ¬ 0xD800 ≤ code := by omega
  have other : ¬ 0xDC00 ≤ code := by omega
  cases marks with
  | nil => simp [ofMarks?, high]
  | cons next others => cases next <;> simp [ofMarks?, high, other]

theorem ofMarks?_mark (char : Char) (marks : List Mark) :
    ofMarks? (mark char :: marks) = (ofMarks? marks).map (char :: ·) := by
  rw [mark]
  split
  · rename_i unit
    have low := toNat_lt_of_lt_space unit.1
    rw [ofMarks?_codeUnit (by omega), Char.ofNat_toNat]
  · rfl

theorem ofMarks?_map_mark (text : List Char) : ofMarks? (text.map mark) = some text := by
  induction text with
  | nil => rfl
  | cons char others ih => rw [List.map_cons, ofMarks?_mark, ih, Option.map_some]

theorem textOf?_marks (text : String) : textOf? (marks text) = some text := by
  rw [textOf?, marks, ofMarks?_map_mark, Option.map_some, String.ofList_toList]

end FilterQuery.Json
