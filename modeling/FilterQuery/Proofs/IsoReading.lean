import FilterQuery.Calendar.Reader
import FilterQuery.Proofs.DayCount
import FilterQuery.Proofs.IsoForms

/-!
What the reader makes of a date or a date-time that is written in the ISO form.
-/

namespace FilterQuery

open Iso

/-! Two and four digits. -/

namespace Iso

theorem exists_two (number : Digits 2) :
    ∃ first second, Text.padded 2 number = [first, second] ∧
      Text.number? [first, second] = some number.val := by
  obtain ⟨first, second, same⟩ := List.length_eq_two.mp (length_two number)
  exact ⟨first, second, same, same ▸ Text.number?_padded 2 number⟩

theorem exists_four (number : Digits 4) : ∃ first second third fourth,
    Text.padded 4 number = [first, second, third, fourth] ∧
      Text.number? [first, second, third, fourth] = some number.val := by
  obtain ⟨first, second, third, fourth, same⟩ := List.length_eq_four.mp (length_four number)
  exact ⟨first, second, third, fourth, same, same ▸ Text.number?_padded 4 number⟩

theorem exists_digits {text : List Char} {width number : Nat} (length : text.length = width + 1)
    (read : Text.number? text = some number) :
    ∃ digits : Digits (width + 1), Text.padded (width + 1) digits = text := by
  have nonempty : text ≠ [] := List.ne_nil_of_length_eq_add_one length
  obtain ⟨fits, same⟩ := (Text.number?_eq_some_iff nonempty number).mp read
  rw [length] at fits same
  exact ⟨⟨number, fits⟩, same⟩

end Iso

/-! Dates. -/

namespace Iso.DateForm

def IsValid (form : DateForm) : Prop :=
  1 ≤ form.month.val ∧ form.month.val ≤ 12 ∧ 1 ≤ form.day.val ∧
    form.day.val ≤ daysInMonth form.year.val form.month

def Denotes (form : DateForm) (date : Date) : Prop :=
  date.year = form.year.val ∧ date.month = form.month.val ∧ date.day = form.day.val

theorem exists_of_isValid {form : DateForm} (valid : form.IsValid) : ∃ date, form.Denotes date :=
  ⟨⟨_, _, _, valid⟩, rfl, rfl, rfl⟩

theorem Denotes.isValid {form : DateForm} {date : Date} (denotes : form.Denotes date) :
    form.IsValid := by
  have valid := date.valid
  rw [denotes.1, denotes.2.1, denotes.2.2] at valid
  exact valid

end Iso.DateForm

namespace Date

theorem of?_eq_some_iff {year : Int} {month day : Nat} {date : Date} :
    of? year month day = some date ↔ date.year = year ∧ date.month = month ∧ date.day = day := by
  rw [of?]
  constructor
  · intro made
    split at made
    · cases made
      exact ⟨rfl, rfl, rfl⟩
    · cases made
  · rintro ⟨rfl, rfl, rfl⟩
    exact dif_pos date.valid

theorem read?_chars (form : DateForm) : read? form.chars = of? form.year form.month form.day := by
  obtain ⟨y1, y2, y3, y4, year, yearRead⟩ := exists_four form.year
  obtain ⟨m1, m2, month, monthRead⟩ := exists_two form.month
  obtain ⟨d1, d2, day, dayRead⟩ := exists_two form.day
  simp [DateForm.chars, year, month, day, read?, yearRead, monthRead, dayRead]

theorem exists_form {text : List Char} {date : Date} (read : read? text = some date) :
    ∃ form : DateForm, form.chars = text := by
  unfold read? at read
  split at read
  case h_2 => cases read
  case h_1 =>
    simp only [Option.bind_eq_bind, Option.bind_eq_some_iff] at read
    obtain ⟨_, yearRead, _, monthRead, _, dayRead, _⟩ := read
    obtain ⟨year, yearChars⟩ := exists_digits (show _ = 3 + 1 from rfl) yearRead
    obtain ⟨month, monthChars⟩ := exists_digits (show _ = 1 + 1 from rfl) monthRead
    obtain ⟨day, dayChars⟩ := exists_digits (show _ = 1 + 1 from rfl) dayRead
    refine ⟨⟨year, month, day⟩, ?_⟩
    rw [DateForm.chars, yearChars, monthChars, dayChars]
    rfl

theorem read?_eq_some_iff {text : List Char} {date : Date} :
    read? text = some date ↔ ∃ form : DateForm, form.chars = text ∧ form.Denotes date := by
  constructor
  · intro read
    obtain ⟨form, rfl⟩ := exists_form read
    rw [read?_chars] at read
    exact ⟨form, rfl, of?_eq_some_iff.mp read⟩
  · rintro ⟨form, rfl, denotes⟩
    rw [read?_chars]
    exact of?_eq_some_iff.mpr denotes

end Date

/-! Seconds. -/

namespace Iso

/-- The fraction of a second in nanoseconds; what is less than a nanosecond is dropped. -/
def nanosOf (fraction : List Char) : Nat :=
  Text.ofDigits fraction * nanosPerSecond / Nat.pow 10 fraction.length

theorem nanosOf_lt {fraction : List Char} (numeric : Text.AllDigits fraction) :
    nanosOf fraction < nanosPerSecond := by
  exact Nat.div_lt_of_lt_mul (Nat.mul_lt_mul_of_pos_right (Text.ofDigits_lt numeric) (by decide))

def SecondsForm.value (form : SecondsForm) : Seconds :=
  ⟨form.second, nanosOf form.fraction⟩

end Iso

namespace Seconds

theorem nanosOf?_eq {digits : List Char} (numeric : Text.AllDigits digits) :
    nanosOf? digits = some (nanosOf digits) := by
  have kept : Text.AllDigits (digits.take 9) :=
    fun char held => numeric char (List.mem_of_mem_take held)
  have zeros : Text.AllDigits (List.replicate (9 - digits.length) '0') := fun char held => by
    rw [List.eq_of_mem_replicate held]
    rfl
  have nothing : Text.ofDigits (List.replicate (9 - digits.length) '0') = 0 :=
    (congrArg Text.ofDigits (List.append_nil _).symm).trans (Text.ofDigits_zeros _ [])
  rw [nanosOf?, Text.number?, if_pos (List.all_eq_true.mpr (kept.append zeros)),
    Text.ofDigits_append, nothing, List.length_replicate, Nat.add_zero, nanosOf]
  refine congrArg some ?_
  have power (high low : Nat) : Nat.pow 10 (high + low) = Nat.pow 10 high * Nat.pow 10 low :=
    Nat.pow_add 10 high low
  rcases Nat.le_total digits.length 9 with short | long
  case inl =>
    have size := power (9 - digits.length) digits.length
    rw [Nat.sub_add_cancel short] at size
    rw [List.take_of_length_le short]
    refine (Nat.div_eq_of_eq_mul_left (Nat.pow_pos (by decide)) ?_).symm
    rw [show nanosPerSecond = Nat.pow 10 9 from rfl, size, Nat.mul_comm, Nat.mul_right_comm]
    rfl
  case inr =>
    have size := power (digits.length - 9) 9
    rw [Nat.sub_add_cancel long] at size
    have dropped : Text.ofDigits (digits.drop 9) < Nat.pow 10 (digits.length - 9) := by
      rw [← List.length_drop]
      exact Text.ofDigits_lt fun char held => numeric char (List.mem_of_mem_drop held)
    have whole := Text.ofDigits_append (digits.take 9) (digits.drop 9)
    rw [List.take_append_drop, List.length_drop] at whole
    rw [Nat.sub_eq_zero_of_le long, whole, size, show nanosPerSecond = Nat.pow 10 9 from rfl,
      Nat.mul_div_mul_right _ _ (by decide), Nat.mul_add_div (Nat.zero_lt_of_lt dropped),
      Nat.div_eq_of_lt dropped]
    exact Nat.one_mul _

theorem readFraction?_chars {fraction rest : List Char} (numeric : Text.AllDigits fraction)
    (ends : ∀ next ∈ rest.head?, next.isDigit = false ∧ next ≠ '.') :
    readFraction? (fractionChars fraction ++ rest) = some (nanosOf fraction, rest) := by
  cases fraction with
  | nil =>
      rw [fractionChars, if_pos rfl, List.nil_append]
      unfold readFraction?
      split
      · exact absurd rfl (ends '.' rfl).2
      · rfl
  | cons digit others =>
      have spanned := Text.span_run numeric fun next head => (ends next head).1
      rw [fractionChars, if_neg (List.cons_ne_nil _ _), List.cons_append, readFraction?, spanned]
      simp [nanosOf?_eq numeric]

theorem exists_fraction {text rest : List Char} {nanos : Nat}
    (read : readFraction? text = some (nanos, rest)) :
    ∃ fraction, Text.AllDigits fraction ∧ fractionChars fraction ++ rest = text := by
  unfold readFraction? at read
  split at read
  case h_1 text =>
    have numeric : Text.AllDigits (text.takeWhile Char.isDigit) :=
      List.all_eq_true.mp List.all_takeWhile
    rw [List.span_eq_takeWhile_dropWhile] at read
    simp only [Option.ite_none_left_eq_some, Option.map_eq_some_iff, Prod.mk.injEq,
      List.isEmpty_iff] at read
    obtain ⟨nonempty, _, _, _, rfl⟩ := read
    refine ⟨_, numeric, ?_⟩
    rw [fractionChars, if_neg nonempty, List.cons_append, List.takeWhile_append_dropWhile]
  case h_2 =>
    cases read
    exact ⟨[], List.forall_mem_nil _, rfl⟩

end Seconds

namespace Iso.DateTimeForm

theorem head_zoneChars (form : DateTimeForm) :
    ∀ next ∈ form.zoneChars.head?, next.isDigit = false ∧ next ≠ '.' ∧ next ≠ ':' := by
  rw [zoneChars]
  cases form.zone with
  | none => simp
  | some zone =>
      cases zone with
      | universal => simp [ZoneForm.chars]
      | offset isAhead hours minutes => cases isAhead <;> simp [ZoneForm.chars]

end Iso.DateTimeForm

theorem Seconds.read?_chars (form : DateTimeForm) :
    read? (form.secondsChars ++ form.zoneChars) =
      some (form.seconds.map SecondsForm.value, form.zoneChars) := by
  have ends := form.head_zoneChars
  rw [DateTimeForm.secondsChars]
  cases form.seconds with
  | none =>
      rw [Option.elim_none, List.nil_append]
      unfold read?
      split
      · rename_i same
        exact absurd rfl (ends ':' (by rw [same]; rfl)).2.2
      · rfl
  | some seconds =>
      obtain ⟨s1, s2, second, secondRead⟩ := exists_two seconds.second
      have fraction := readFraction?_chars seconds.numeric fun next head =>
        ⟨(ends next head).1, (ends next head).2.1⟩
      simp [SecondsForm.chars, SecondsForm.value, second, read?, secondRead, fraction]

theorem Seconds.exists_form {text rest : List Char} {seconds : Option Seconds}
    (read : read? text = some (seconds, rest)) :
    ∃ form : Option SecondsForm, form.elim [] SecondsForm.chars ++ rest = text := by
  unfold read? at read
  split at read
  case h_1 s1 s2 after =>
    simp only [Option.bind_eq_bind, Option.bind_eq_some_iff, Option.some.injEq,
      Prod.mk.injEq] at read
    obtain ⟨_, secondRead, ⟨_, _⟩, fractionRead, _, rfl⟩ := read
    obtain ⟨second, secondChars⟩ := exists_digits (show _ = 1 + 1 from rfl) secondRead
    obtain ⟨fraction, numeric, rfl⟩ := exists_fraction fractionRead
    exact ⟨some ⟨second, fraction, numeric⟩, by simp [SecondsForm.chars, secondChars]⟩
  case h_2 =>
    cases read
    exact ⟨none, rfl⟩

/-! Offsets. -/

namespace Iso.ZoneForm

def IsSensible : ZoneForm → Prop
  | universal => True
  | offset _ hours minutes => hours.val ≤ 23 ∧ minutes.val ≤ 59

def minutesAhead : ZoneForm → Int
  | universal => 0
  | offset isAhead hours minutes => (if isAhead then 1 else -1) * (hours.val * 60 + minutes.val)

theorem IsSensible.bounded {form : ZoneForm} (sensible : form.IsSensible) :
    -1440 < form.minutesAhead ∧ form.minutesAhead < 1440 := by
  cases form with
  | universal => decide
  | offset isAhead hours minutes =>
      rw [IsSensible] at sensible
      cases isAhead <;> simp only [minutesAhead, Bool.false_eq_true, if_true, if_false] <;> omega

end Iso.ZoneForm

namespace Offset

theorem ext_minutes {left right : Offset} (same : left.minutes = right.minutes) : left = right := by
  cases left
  cases right
  cases same
  rfl

theorem of?_eq_some_iff {isAhead : Bool} {hours minutes : Nat} {offset : Offset} :
    of? isAhead hours minutes = some offset ↔
      (hours ≤ 23 ∧ minutes ≤ 59) ∧
        offset.minutes = (if isAhead then 1 else -1) * (hours * 60 + minutes : Int) := by
  have signed (total : Int) : (if isAhead then total else -total) =
      (if isAhead then 1 else -1) * total := by
    cases isAhead <;> simp
  rw [of?]
  split
  case isFalse outside => simp [outside]
  case isTrue inside =>
    simp only [Option.some.injEq, inside, and_self, true_and, ← signed]
    exact ⟨fun same => same ▸ rfl, fun same => ext_minutes same.symm⟩

theorem read?_chars_iff (form : ZoneForm) (offset : Offset) :
    read? form.chars = some offset ↔ form.IsSensible ∧ offset.minutes = form.minutesAhead := by
  cases form with
  | universal =>
      have zero : read? (ZoneForm.chars .universal) = some ⟨0, by decide⟩ := rfl
      rw [zero, Option.some.injEq, ZoneForm.IsSensible, true_and, ZoneForm.minutesAhead]
      exact ⟨fun same => same ▸ rfl, fun same => ext_minutes same.symm⟩
  | offset isAhead hours minutes =>
      obtain ⟨h1, h2, hour, hourRead⟩ := exists_two hours
      obtain ⟨m1, m2, minute, minuteRead⟩ := exists_two minutes
      have readAs : read? (ZoneForm.chars (.offset isAhead hours minutes)) =
          of? isAhead hours minutes := by
        cases isAhead <;> simp [ZoneForm.chars, hour, minute, read?, hourRead, minuteRead]
      rw [readAs, of?_eq_some_iff]
      rfl

theorem exists_of_sensible {form : ZoneForm} (sensible : form.IsSensible) :
    ∃ offset, read? form.chars = some offset :=
  ⟨⟨form.minutesAhead, sensible.bounded⟩, (read?_chars_iff form _).mpr ⟨sensible, rfl⟩⟩

theorem exists_form {text : List Char} {offset : Offset} (read : read? text = some offset) :
    ∃ form : ZoneForm, form.chars = text := by
  unfold read? at read
  split at read
  case h_1 => exact ⟨.universal, rfl⟩
  case h_2 sign h1 h2 m1 m2 =>
    simp only [Option.bind_eq_bind, Option.bind_eq_some_iff] at read
    obtain ⟨_, hourRead, _, minuteRead, read⟩ := read
    obtain ⟨hours, hourChars⟩ := exists_digits (show _ = 1 + 1 from rfl) hourRead
    obtain ⟨minutes, minuteChars⟩ := exists_digits (show _ = 1 + 1 from rfl) minuteRead
    obtain ⟨isAhead, rfl⟩ : ∃ isAhead : Bool, (if isAhead then '+' else '-') = sign := by
      split at read
      case isTrue plus => exact ⟨true, plus.symm⟩
      case isFalse =>
        split at read
        case isTrue minus => exact ⟨false, minus.symm⟩
        case isFalse => cases read
    exact ⟨.offset isAhead hours minutes, by rw [ZoneForm.chars, hourChars, minuteChars]; rfl⟩
  case h_3 => cases read

end Offset

/-! Date-times. -/

namespace Iso

def DateForm.dayNumber (form : DateForm) : Int :=
  daysBeforeYear form.year.val + daysBeforeMonth form.year.val form.month + form.day.val

namespace DateTimeForm

variable (form : DateTimeForm)

def second : Nat :=
  form.seconds.elim 0 fun seconds => seconds.second

def nanos : Nat :=
  form.seconds.elim 0 fun seconds => nanosOf seconds.fraction

def minutesAhead : Int :=
  form.zone.elim 0 ZoneForm.minutesAhead

theorem nanos_lt : form.nanos < nanosPerSecond := by
  rw [nanos]
  cases form.seconds with
  | none => decide
  | some seconds => exact nanosOf_lt seconds.numeric

def minuteNumber : Int :=
  form.date.dayNumber * 1440 + (form.hour * 60 + form.minute : Nat)

/-- The written numbers are those of a date, a time of day, and an offset. -/
structure IsSensible : Prop where
  date : form.date.IsValid
  hour : form.hour.val ≤ 23
  minute : form.minute.val ≤ 59
  second : form.second ≤ 60
  zone : ∀ zone ∈ form.zone, zone.IsSensible

/-- Seconds may be left out, but not where an offset follows. -/
def IsComplete : Prop :=
  form.zone = none ∨ form.seconds ≠ none

/-- The date-time is the written one in universal time. Second sixty is second fifty-nine with a
fraction of a second or more. -/
structure Denotes (time : DateTime) : Prop where
  sensible : form.IsSensible
  complete : form.IsComplete
  minute : time.minuteNumber = form.minuteNumber - form.minutesAhead
  second : time.second = min form.second 59
  nanos : time.nanos = form.nanos + if form.second = 60 then nanosPerSecond else 0

end DateTimeForm

end Iso

namespace DateTime

theorem of?_eq_some_iff {date : Date} {hour minute second nanos : Nat} {time : DateTime} :
    of? date hour minute second nanos = some time ↔
      time.date = date ∧ time.hour = hour ∧ time.minute = minute ∧ time.second = second ∧
        time.nanos = nanos := by
  rw [of?]
  constructor
  · intro made
    split at made
    · cases made
      exact ⟨rfl, rfl, rfl, rfl, rfl⟩
    · cases made
  · rintro ⟨rfl, rfl, rfl, rfl, rfl⟩
    exact dif_pos time.valid

theorem ofClock?_eq_some_iff {date : Date} {hour minute : Nat} {seconds : Seconds}
    {time : DateTime} :
    ofClock? date hour minute seconds = some time ↔
      time.date = date ∧ time.hour = hour ∧ time.minute = minute ∧ seconds.second ≤ 60 ∧
        time.second = min seconds.second 59 ∧
        time.nanos = seconds.nanos + if seconds.second = 60 then nanosPerSecond else 0 := by
  have valid := time.valid
  rw [ofClock?]
  split
  all_goals
    rw [of?_eq_some_iff]
    refine and_congr_right fun _ => ?_
    omega

theorem exists_ofClock? (date : Date) {hour minute : Nat} {seconds : Seconds}
    (fits : seconds.nanos < nanosPerSecond) (inDay : hour ≤ 23) (inHour : minute ≤ 59)
    (inMinute : seconds.second ≤ 60) :
    ∃ time, ofClock? date hour minute seconds = some time := by
  rw [ofClock?]
  split
  · exact ⟨_, dif_pos (by omega)⟩
  · exact ⟨_, dif_pos (by omega)⟩

theorem read?_chars (form : DateTimeForm) :
    read? form.chars =
      (Date.of? form.date.year form.date.month form.date.day).bind fun date =>
        let clock := ofClock? date form.hour form.minute ⟨form.second, form.nanos⟩
        match form.zone, form.seconds with
        | none, _ => clock
        | some zone, some _ =>
            (Offset.read? zone.chars).bind fun offset => clock.map (·.toUniversal offset)
        | some _, none => none := by
  obtain ⟨y1, y2, y3, y4, year, _⟩ := exists_four form.date.year
  obtain ⟨m1, m2, month, _⟩ := exists_two form.date.month
  obtain ⟨d1, d2, day, _⟩ := exists_two form.date.day
  obtain ⟨h1, h2, hour, hourRead⟩ := exists_two form.hour
  obtain ⟨n1, n2, minute, minuteRead⟩ := exists_two form.minute
  have dateChars : form.date.chars = [y1, y2, y3, y4, '-', m1, m2, '-', d1, d2] := by
    rw [DateForm.chars, year, month, day]
    rfl
  have shape :
      form.chars = y1 :: y2 :: y3 :: y4 :: '-' :: m1 :: m2 :: '-' :: d1 :: d2 :: form.separator ::
      h1 :: h2 :: ':' :: n1 :: n2 :: (form.secondsChars ++ form.zoneChars) := by
    simp [DateTimeForm.chars, dateChars, hour, minute]
  have separated : form.separator = 'T' ∨ form.separator = ' ' := by simpa using form.separated
  rw [shape, read?, ← dateChars, Date.read?_chars, hourRead, minuteRead, Seconds.read?_chars]
  simp only [Option.bind_eq_bind, Option.bind_some, if_pos separated]
  refine congrArg _ (funext fun date => ?_)
  rw [DateTimeForm.zoneChars, DateTimeForm.second, DateTimeForm.nanos]
  cases form.zone with
  | none => cases form.seconds <;> rfl
  | some zone =>
      cases written : zone.chars with
      | nil => cases zone <;> cases written
      | cons sign others =>
          cases form.seconds with
          | none => simp [written]
          | some seconds =>
              simp only [Option.elim_some, Option.map_some, written, SecondsForm.value]
              refine congrArg _ (funext fun offset => ?_)
              cases ofClock? date form.hour form.minute ⟨seconds.second,
                nanosOf seconds.fraction⟩ <;> rfl

theorem exists_form {text : List Char} {time : DateTime} (read : read? text = some time) :
    ∃ form : DateTimeForm, form.chars = text := by
  unfold read? at read
  split at read
  case h_2 => cases read
  case h_1 y1 y2 y3 y4 m1 m2 d1 d2 separator h1 h2 n1 n2 rest =>
    simp only [Option.bind_eq_bind, Option.bind_eq_some_iff] at read
    obtain ⟨_, dateRead, _, hourRead, _, minuteRead, ⟨seconds, zone⟩, secondsRead, read⟩ := read
    obtain ⟨date, dateChars⟩ := Date.exists_form dateRead
    obtain ⟨hour, hourChars⟩ := exists_digits (show _ = 1 + 1 from rfl) hourRead
    obtain ⟨minute, minuteChars⟩ := exists_digits (show _ = 1 + 1 from rfl) minuteRead
    obtain ⟨seconds, secondsChars⟩ := Seconds.exists_form secondsRead
    split at read
    case isFalse => cases read
    case isTrue separated =>
      obtain ⟨zone, zoneChars⟩ : ∃ form : Option ZoneForm, form.elim [] ZoneForm.chars = zone := by
        split at read
        case h_1 nothing => exact ⟨none, nothing.symm⟩
        case h_2 =>
          obtain ⟨_, offsetRead, _⟩ := Option.bind_eq_some_iff.mp read
          obtain ⟨zone, zoneChars⟩ := Offset.exists_form offsetRead
          exact ⟨some zone, zoneChars⟩
        case h_3 => cases read
      refine ⟨⟨date, separator, by simpa using separated, hour, minute, seconds, zone⟩, ?_⟩
      simp [DateTimeForm.chars, DateTimeForm.secondsChars, DateTimeForm.zoneChars, dateChars,
        hourChars, minuteChars, zoneChars, secondsChars]

theorem clock_eq_some {form : DateTimeForm} {date : Date} {clock : DateTime}
    (made : Date.of? form.date.year form.date.month form.date.day = some date)
    (read : ofClock? date form.hour form.minute ⟨form.second, form.nanos⟩ = some clock) :
    (form.date.IsValid ∧ form.hour.val ≤ 23 ∧ form.minute.val ≤ 59 ∧ form.second ≤ 60) ∧
      clock.minuteNumber = form.minuteNumber ∧ clock.second = min form.second 59 ∧
        clock.nanos = form.nanos + if form.second = 60 then nanosPerSecond else 0 := by
  have denotes : form.date.Denotes date := Date.of?_eq_some_iff.mp made
  obtain ⟨rfl, hour, minute, inMinute, second, nanos⟩ := ofClock?_eq_some_iff.mp read
  have ⟨year, month, day⟩ := denotes
  have inDay := clock.valid
  refine ⟨⟨denotes.isValid, by omega, by omega, inMinute⟩, ?_, second, nanos⟩
  rw [minuteNumber, Date.dayNumber, year, month, day, hour, minute]
  rfl

theorem denotes_of_read {form : DateTimeForm} {time : DateTime}
    (read : read? form.chars = some time) :
    form.Denotes time := by
  rw [read?_chars, Option.bind_eq_some_iff] at read
  obtain ⟨date, made, read⟩ := read
  have zoneOf : ∀ zone, form.zone = some zone → form.minutesAhead = zone.minutesAhead :=
    fun zone given => by
      rw [DateTimeForm.minutesAhead, given, Option.elim_some]
  split at read
  case h_1 noZone =>
    obtain ⟨⟨valid, hour, minute, inMinute⟩, minuteNumber, second, nanos⟩ := clock_eq_some made read
    refine ⟨⟨valid, hour, minute, inMinute, ?_⟩, .inl noZone, ?_, second, nanos⟩
    · simp [noZone]
    · rw [minuteNumber, DateTimeForm.minutesAhead, noZone, Option.elim_none, Int.sub_zero]
  case h_2 zone seconds given written =>
    obtain ⟨offset, offsetRead, read⟩ := Option.bind_eq_some_iff.mp read
    obtain ⟨clock, clockRead, rfl⟩ := Option.map_eq_some_iff.mp read
    obtain ⟨sensible, minutes⟩ := (Offset.read?_chars_iff zone offset).mp offsetRead
    obtain ⟨⟨valid, hour, minute, inMinute⟩, minuteNumber, second, nanos⟩ :=
      clock_eq_some made clockRead
    refine ⟨⟨valid, hour, minute, inMinute, ?_⟩, .inr ?_, ?_, second, nanos⟩
    · simpa [given] using sensible
    · simp [written]
    · rw [minuteNumber_toUniversal, minuteNumber, minutes, zoneOf zone given]
  case h_3 => cases read

theorem exists_of_sensible {form : DateTimeForm} (sensible : form.IsSensible)
    (complete : form.IsComplete) :
    ∃ time, read? form.chars = some time := by
  have made : Date.of? form.date.year form.date.month form.date.day =
      some ⟨_, _, _, sensible.date⟩ :=
    dif_pos sensible.date
  obtain ⟨clock, clockRead⟩ : ∃ clock, ofClock? ⟨_, _, _, sensible.date⟩ form.hour form.minute
      ⟨form.second, form.nanos⟩ = some clock :=
    exists_ofClock? _ form.nanos_lt sensible.hour sensible.minute sensible.second
  rw [read?_chars, made, Option.bind_some]
  simp only [clockRead]
  split
  case h_1 => exact ⟨clock, rfl⟩
  case h_2 zone _ given _ =>
    obtain ⟨offset, offsetRead⟩ := Offset.exists_of_sensible (sensible.zone zone given)
    exact ⟨clock.toUniversal offset, by rw [offsetRead]; rfl⟩
  case h_3 given missing =>
    exact absurd complete (by simp [DateTimeForm.IsComplete, given, missing])

/-- Reading accepts the forms that make sense and are complete, and gives the date-time that they
denote. -/
theorem read?_eq_some_iff {text : List Char} {time : DateTime} :
    read? text = some time ↔ ∃ form : DateTimeForm, form.chars = text ∧ form.Denotes time := by
  constructor
  · intro read
    obtain ⟨form, rfl⟩ := exists_form read
    exact ⟨form, rfl, denotes_of_read read⟩
  · rintro ⟨form, rfl, denotes⟩
    obtain ⟨other, read⟩ := exists_of_sensible denotes.sensible denotes.complete
    have same := denotes_of_read read
    have equal : other = time := eq_of_minuteNumber (same.minute.trans denotes.minute.symm)
      (same.second.trans denotes.second.symm) (same.nanos.trans denotes.nanos.symm)
    rw [read, equal]

end DateTime

end FilterQuery
