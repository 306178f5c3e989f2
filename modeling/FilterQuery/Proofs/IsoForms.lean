import FilterQuery.Proofs.PaddedNumbers
import Mathlib.Computability.RegularExpressions

/-!
The forms of dates and date-times, as patterns and as fields. A pattern says which texts have the
form; the fields say what is written in such a text, whether or not it makes sense as a date. Main
statements: the texts that a pattern matches are those that its fields can be written to.
-/

namespace FilterQuery.Iso

/-! Patterns. -/

abbrev Pattern := RegularExpression Char

namespace Pattern

open RegularExpression

def anyOf (patterns : List Pattern) : Pattern :=
  patterns.sum

def sequence (patterns : List Pattern) : Pattern :=
  patterns.prod

def letter (letters : List Char) : Pattern :=
  anyOf (letters.map char)

def optional (pattern : Pattern) : Pattern :=
  anyOf [pattern, 1]

def digit : Pattern :=
  letter ((List.range 10).map Nat.digitChar)

def digits (count : Nat) : Pattern :=
  sequence (List.replicate count digit)

def date : Pattern :=
  sequence [digits 4, char '-', digits 2, char '-', digits 2]

def seconds : Pattern :=
  sequence [char ':', digits 2, optional (sequence [char '.', digit, digit.star])]

def zone : Pattern :=
  anyOf [char 'Z', sequence [letter ['+', '-'], digits 2, char ':', digits 2]]

def dateTime : Pattern :=
  sequence [date, letter ['T', ' '], digits 2, char ':', digits 2, optional seconds, optional zone]

variable {pattern : Pattern} {patterns : List Pattern} {text : List Char}

theorem mem_char {only : Char} : text ∈ (char only : Pattern).matches' ↔ text = [only] :=
  Iff.rfl

theorem mem_anyOf : text ∈ (anyOf patterns).matches' ↔
    ∃ pattern ∈ patterns, text ∈ pattern.matches' := by
  induction patterns with
  | nil => simp [anyOf, Language.notMem_zero]
  | cons pattern rest ih =>
      rw [anyOf, List.sum_cons, matches'_add, Language.mem_add]
      simp only [List.mem_cons, exists_eq_or_imp, ← ih, anyOf]

theorem mem_sequence_nil : text ∈ (sequence []).matches' ↔ text = [] :=
  Language.mem_one text

theorem mem_sequence_cons :
    text ∈ (sequence (pattern :: patterns)).matches' ↔
      ∃ first ∈ pattern.matches', ∃ rest ∈ (sequence patterns).matches', first ++ rest = text := by
  rw [sequence, List.prod_cons, matches'_mul, Language.mem_mul]
  rfl

theorem mem_letter {letters : List Char} :
    text ∈ (letter letters).matches' ↔ ∃ one ∈ letters, text = [one] := by
  simp only [letter, mem_anyOf, List.mem_map, exists_exists_and_eq_and, mem_char]

theorem mem_optional : text ∈ (optional pattern).matches' ↔
    text ∈ pattern.matches' ∨ text = [] := by
  simp [optional, mem_anyOf, Language.mem_one]

theorem mem_digit : text ∈ digit.matches' ↔ ∃ one : Char, one.isDigit = true ∧ text = [one] := by
  simp only [digit, mem_letter, List.mem_map, List.mem_range, exists_exists_and_eq_and]
  constructor
  · rintro ⟨number, small, rfl⟩
    exact ⟨number.digitChar, by simp [Nat.isDigit_digitChar, small], rfl⟩
  · rintro ⟨one, numeric, rfl⟩
    have small := Text.digit_lt numeric
    have same : (Text.digit one).digitChar = one :=
      Text.digit_inj (by simp [Nat.isDigit_digitChar, small]) numeric
        (Nat.toNat_digitChar_sub_48_of_lt_ten small)
    exact ⟨_, small, by rw [same]⟩

theorem mem_digits {count : Nat} :
    text ∈ (digits count).matches' ↔ text.length = count ∧ Text.AllDigits text := by
  induction count generalizing text with
  | zero =>
      rw [digits, List.replicate_zero, mem_sequence_nil, List.length_eq_zero_iff]
      exact ⟨fun empty => ⟨empty, empty ▸ List.forall_mem_nil _⟩, And.left⟩
  | succ count ih =>
      rw [digits, List.replicate_succ, mem_sequence_cons]
      constructor
      · rintro ⟨_, first, rest, others, rfl⟩
        obtain ⟨one, numeric, rfl⟩ := mem_digit.mp first
        obtain ⟨width, numerics⟩ := ih.mp others
        exact ⟨congrArg Nat.succ width, List.forall_mem_cons.mpr ⟨numeric, numerics⟩⟩
      · rintro ⟨width, numerics⟩
        obtain ⟨one, rest, rfl⟩ := List.exists_cons_of_length_eq_add_one width
        obtain ⟨numeric, others⟩ := List.forall_mem_cons.mp numerics
        exact ⟨[one], mem_digit.mpr ⟨one, numeric, rfl⟩, rest,
          ih.mpr ⟨Nat.succ.inj width, others⟩, rfl⟩

theorem mem_star_digit : text ∈ digit.star.matches' ↔ Text.AllDigits text := by
  rw [matches'_star, Language.mem_kstar]
  constructor
  · rintro ⟨words, rfl, each⟩ one held
    obtain ⟨word, inWords, inWord⟩ := List.mem_flatten.mp held
    obtain ⟨other, numeric, rfl⟩ := mem_digit.mp (each word inWords)
    rw [List.mem_singleton.mp inWord]
    exact numeric
  · intro numerics
    refine ⟨text.map ([·]), by simp [← List.flatMap_def], ?_⟩
    rw [List.forall_mem_map]
    exact fun one held => mem_digit.mpr ⟨one, numerics one held, rfl⟩

end Pattern

/-! Fields. -/

abbrev Digits (width : Nat) :=
  Fin (Nat.pow 10 width)

theorem length_two (number : Digits 2) : (Text.padded 2 number).length = 2 :=
  Text.length_padded (by decide) number.isLt

theorem length_four (number : Digits 4) : (Text.padded 4 number).length = 4 :=
  Text.length_padded (by decide) number.isLt

structure DateForm where
  year : Digits 4
  month : Digits 2
  day : Digits 2

structure SecondsForm where
  second : Digits 2
  /-- The digits after the point; without any there is no point. -/
  fraction : List Char
  numeric : Text.AllDigits fraction

inductive ZoneForm where
  | universal
  | offset (isAhead : Bool) (hours minutes : Digits 2)

structure DateTimeForm where
  date : DateForm
  separator : Char
  separated : separator ∈ ['T', ' ']
  hour : Digits 2
  minute : Digits 2
  seconds : Option SecondsForm
  zone : Option ZoneForm

def DateForm.chars (form : DateForm) : List Char :=
  Text.padded 4 form.year ++ '-' :: Text.padded 2 form.month ++ '-' :: Text.padded 2 form.day

theorem DateForm.length_chars (form : DateForm) : form.chars.length = 10 := by
  simp only [chars, List.length_append, List.length_cons, length_four, length_two]

def fractionChars (fraction : List Char) : List Char :=
  if fraction = [] then [] else '.' :: fraction

def SecondsForm.chars (form : SecondsForm) : List Char :=
  ':' :: Text.padded 2 form.second ++ fractionChars form.fraction

def ZoneForm.chars : ZoneForm → List Char
  | universal => ['Z']
  | offset isAhead hours minutes =>
      (if isAhead then '+' else '-') :: Text.padded 2 hours ++ ':' :: Text.padded 2 minutes

namespace DateTimeForm

variable (form : DateTimeForm)

def secondsChars : List Char :=
  form.seconds.elim [] SecondsForm.chars

def zoneChars : List Char :=
  form.zone.elim [] ZoneForm.chars

def chars : List Char :=
  form.date.chars ++ form.separator :: Text.padded 2 form.hour ++
    ':' :: Text.padded 2 form.minute ++ form.secondsChars ++ form.zoneChars

theorem length_chars : 16 ≤ form.chars.length := by
  simp only [chars, List.length_append, List.length_cons, form.date.length_chars, length_two]
  omega

end DateTimeForm

/-! The texts that a pattern matches are those of its forms. -/

namespace Pattern

open RegularExpression

def Writes {Form : Type} (pattern : Pattern) (chars : Form → List Char) : Prop :=
  ∀ text, text ∈ pattern.matches' ↔ ∃ form, chars form = text

namespace Writes

variable {Form Other : Type} {pattern other : Pattern} {patterns : List Pattern}
  {chars : Form → List Char} {otherChars : Other → List Char}

theorem last (writes : pattern.Writes chars) : (sequence [pattern]).Writes chars := by
  intro text
  simp only [mem_sequence_cons, mem_sequence_nil, exists_eq_left, List.append_nil, exists_eq_right]
  exact writes text

theorem before (writes : pattern.Writes chars) (after : (sequence patterns).Writes otherChars) :
    (sequence (pattern :: patterns)).Writes fun form : Form × Other =>
      chars form.1 ++ otherChars form.2 := by
  intro text
  simp only [mem_sequence_cons, writes _, after _, exists_exists_eq_and, Prod.exists]

theorem behind (only : Char) (writes : (sequence patterns).Writes chars) :
    (sequence (char only :: patterns)).Writes fun form => only :: chars form := by
  intro text
  simp only [mem_sequence_cons, mem_char, exists_eq_left, writes _, exists_exists_eq_and,
    List.singleton_append]

theorem optional (writes : pattern.Writes chars) :
    (optional pattern).Writes fun form : Option Form => form.elim [] chars := by
  intro text
  rw [mem_optional, writes text, Option.exists, or_comm, eq_comm]
  rfl

theorem as (writes : pattern.Writes chars) (view : Form → Other) (onto : Function.Surjective view)
    (same : ∀ form, otherChars (view form) = chars form) : pattern.Writes otherChars := by
  intro text
  rw [writes text, onto.exists]
  simp only [same]

end Writes

theorem writes_digits {width : Nat} (positive : 0 < width) :
    (digits width).Writes fun number : Digits width => Text.padded width number := by
  intro text
  rw [mem_digits]
  constructor
  · rintro ⟨rfl, numeric⟩
    exact ⟨⟨_, Text.ofDigits_lt numeric⟩,
      Text.padded_ofDigits (List.length_pos_iff.mp positive) numeric⟩
  · rintro ⟨number, rfl⟩
    exact ⟨Text.length_padded positive number.isLt, Text.isDigit_of_mem_padded _ _⟩

theorem writes_two : (digits 2).Writes fun number : Digits 2 => Text.padded 2 number :=
  writes_digits (by decide)

theorem writes_letter (letters : List Char) :
    (letter letters).Writes fun one : { one // one ∈ letters } => [one.val] := by
  intro text
  simp only [mem_letter, Subtype.exists, exists_prop, eq_comm]

theorem writes_sign : (letter ['+', '-']).Writes fun isAhead : Bool =>
    [if isAhead then '+' else '-'] := by
  intro text
  simp [mem_letter, Bool.exists_bool, or_comm, eq_comm]

theorem writes_fraction :
    (optional (sequence [char '.', digit, digit.star])).Writes
      fun fraction : { text // Text.AllDigits text } => fractionChars fraction := by
  intro text
  rw [mem_optional]
  constructor
  · rintro (point | rfl)
    · simp only [mem_sequence_cons, mem_sequence_nil, mem_char, mem_digit, mem_star_digit] at point
      obtain ⟨_, rfl, _, ⟨_, ⟨one, numeric, rfl⟩, _, ⟨others, numerics, _, rfl, rfl⟩, rfl⟩, rfl⟩ :=
        point
      exact ⟨⟨one :: others, List.forall_mem_cons.mpr ⟨numeric, numerics⟩⟩, by simp [fractionChars]⟩
    · exact ⟨⟨[], List.forall_mem_nil _⟩, rfl⟩
  · rintro ⟨⟨_ | ⟨one, others⟩, numerics⟩, rfl⟩
    · exact .inr rfl
    · obtain ⟨numeric, inOthers⟩ := List.forall_mem_cons.mp numerics
      refine .inl ?_
      simp only [mem_sequence_cons, mem_sequence_nil, mem_char, mem_digit, mem_star_digit]
      exact ⟨_, rfl, _, ⟨_, ⟨one, numeric, rfl⟩, _, ⟨others, inOthers, [], rfl, rfl⟩, rfl⟩,
        by simp [fractionChars]⟩

theorem writes_date : date.Writes DateForm.chars := by
  have monthAndDay := writes_two.before (.behind '-' writes_two.last)
  have writes := (writes_digits (show 0 < 4 by decide)).before (.behind '-' monthAndDay)
  refine writes.as (fun (year, month, day) => ⟨year, month, day⟩) (fun form => ?_) fun form => ?_
  · exact ⟨(form.year, form.month, form.day), rfl⟩
  · exact List.append_assoc _ _ _

theorem writes_seconds : seconds.Writes SecondsForm.chars := by
  have writes := Writes.behind ':' (writes_two.before writes_fraction.last)
  refine writes.as (fun (second, fraction) => ⟨second, fraction.val, fraction.property⟩)
    (fun form => ?_) fun _ => rfl
  exact ⟨(form.second, ⟨form.fraction, form.numeric⟩), rfl⟩

theorem writes_zone : zone.Writes ZoneForm.chars := by
  have offset := writes_sign.before (writes_two.before (.behind ':' writes_two.last))
  intro text
  simp only [zone, mem_anyOf, List.mem_cons, List.not_mem_nil, or_false, exists_eq_or_imp,
    exists_eq_left, mem_char]
  constructor
  · rintro (rfl | ahead)
    · exact ⟨.universal, rfl⟩
    · obtain ⟨⟨isAhead, hours, minutes⟩, rfl⟩ := (offset text).mp ahead
      exact ⟨.offset isAhead hours minutes, rfl⟩
  · rintro ⟨_ | ⟨isAhead, hours, minutes⟩, rfl⟩
    · exact .inl rfl
    · exact .inr ((offset _).mpr ⟨⟨isAhead, hours, minutes⟩, rfl⟩)

theorem writes_dateTime : dateTime.Writes DateTimeForm.chars := by
  have rest := writes_seconds.optional.before writes_zone.optional.last
  have clock := writes_two.before (.behind ':' (writes_two.before rest))
  have writes := writes_date.before ((writes_letter ['T', ' ']).before clock)
  refine writes.as (fun (date, separator, hour, minute, seconds, zone) =>
    ⟨date, separator.val, separator.property, hour, minute, seconds, zone⟩)
      (fun form => ?_) fun form => ?_
  · exact ⟨(form.date, ⟨form.separator, form.separated⟩, form.hour, form.minute, form.seconds,
      form.zone), rfl⟩
  · simp only [DateTimeForm.chars, DateTimeForm.secondsChars, DateTimeForm.zoneChars,
      List.append_assoc, List.cons_append, List.nil_append]

end Pattern

end FilterQuery.Iso
