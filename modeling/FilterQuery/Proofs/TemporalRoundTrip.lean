import FilterQuery.Proofs.Coercion
import FilterQuery.Sqlite

/-!
Dates and date-times that are written and read again. Main statement: a date or a date-time is what
its texts, in a message and in a store, are coerced to, exactly when its year has four digits; all
that is coerced without an offset has such a year.
-/

namespace FilterQuery

open Iso Text

/-! Fractions of a second. -/

theorem Iso.nanosOf_padded {width unit number : Nat} (positive : 0 < width)
    (units : unit * Nat.pow 10 width = nanosPerSecond) (fits : number < Nat.pow 10 width) :
    nanosOf (padded width number) = number * unit := by
  rw [nanosOf, ofDigits_padded, length_padded positive fits, ← units, ← Nat.mul_assoc]
  exact Nat.mul_div_cancel _ (Nat.pow_pos (by decide))

theorem DateTime.exists_fraction {nanos : Nat} (fits : nanos < nanosPerSecond) :
    ∃ fraction, AllDigits fraction ∧ fractionChars fraction = fractionText nanos ∧
      nanosOf fraction = nanos := by
  have written {width unit number : Nat} (positive : 0 < width)
      (units : unit * Nat.pow 10 width = nanosPerSecond) (whole : number * unit = nanos) :
      ∃ fraction, AllDigits fraction ∧ fractionChars fraction = '.' :: padded width number ∧
        nanosOf fraction = nanos := by
    have inWidth : number < Nat.pow 10 width := by
      rw [← whole, ← units, Nat.mul_comm] at fits
      exact Nat.lt_of_mul_lt_mul_left fits
    have nonempty : padded width number ≠ [] :=
      List.length_pos_iff.mp (by rwa [length_padded positive inWidth])
    exact ⟨_, isDigit_of_mem_padded _ _, if_neg nonempty,
      (nanosOf_padded positive units inWidth).trans whole⟩
  rw [fractionText]
  split
  case isTrue zero => exact ⟨[], List.forall_mem_nil _, rfl, zero.symm⟩
  case isFalse =>
    split
    case isTrue whole =>
      exact written (by decide) rfl (Nat.div_mul_cancel (Nat.dvd_of_mod_eq_zero whole))
    case isFalse =>
      split
      case isTrue whole =>
        exact written (by decide) rfl (Nat.div_mul_cancel (Nat.dvd_of_mod_eq_zero whole))
      case isFalse => exact written (by decide) rfl (Nat.mul_one nanos)

/-! Dates and date-times. -/

namespace Date

theorem exists_written {date : Date} (plain : IsPlain date.year) :
    ∃ form : DateForm, form.chars = date.write ∧ form.Denotes date := by
  have valid := date.valid
  have inMonth := daysInMonth_le date.year date.month
  have hundred : Nat.pow 10 2 = 100 := rfl
  have limit : Nat.pow 10 4 = 10000 := rfl
  have inYears := plain.2
  have year : yearText date.year = padded 4 date.year.toNat := if_pos plain
  refine ⟨⟨⟨date.year.toNat, by omega⟩, ⟨date.month, by omega⟩, ⟨date.day, by omega⟩⟩,
    ?_, ?_, rfl, rfl⟩
  · rw [DateForm.chars, write, year]
  · exact (Int.toNat_of_nonneg plain.1).symm

end Date

namespace DateTime

theorem exists_written {time : DateTime} (plain : Date.IsPlain time.date.year) {separator : Char}
    (separated : separator ∈ ['T', ' ']) :
    ∃ form : DateTimeForm, form.chars = time.write separator ∧ form.Denotes time := by
  obtain ⟨day, dayWritten, dayDenotes⟩ := Date.exists_written plain
  obtain ⟨fraction, numeric, fractionWritten, nanos⟩ :=
    exists_fraction (Nat.mod_lt time.nanos (show 0 < nanosPerSecond by decide))
  obtain ⟨inMinute, second, sameNanos⟩ := time.writtenSecond
  have valid := time.valid
  have hundred : Nat.pow 10 2 = 100 := rfl
  let seconds : SecondsForm :=
    ⟨⟨time.second + time.nanos / nanosPerSecond, by omega⟩, fraction, numeric⟩
  let form : DateTimeForm :=
    ⟨day, separator, separated, ⟨time.hour, by omega⟩, ⟨time.minute, by omega⟩, some seconds, none⟩
  have minute : time.minuteNumber = form.minuteNumber - form.minutesAhead := by
    rw [minuteNumber, dayDenotes.dayNumber_eq]
    exact (Int.sub_zero _).symm
  have fractionNanos : form.nanos = time.nanos % nanosPerSecond := nanos
  refine ⟨form, ?written,
    ⟨⟨dayDenotes.isValid, ?hour, ?minute, inMinute, ?zone⟩, .inl rfl, minute, second, ?same⟩⟩
  case written =>
    simp [form, seconds, DateTimeForm.chars, DateTimeForm.secondsChars, DateTimeForm.zoneChars,
      SecondsForm.chars, write, clockText, dayWritten, fractionWritten]
  case hour => exact Nat.le_of_lt_succ valid.1
  case minute => exact Nat.le_of_lt_succ valid.2.1
  case zone => simp [form]
  case same =>
    rw [fractionNanos]
    exact sameNanos

theorem isPlain_of_written {form : DateTimeForm} {time : DateTime} {separator : Char}
    (written : form.chars = time.write separator) : Date.IsPlain time.date.year := by
  by_contra signed
  have sign : Date.yearText time.date.year =
      (if time.date.year < 0 then '-' else '+') :: padded 4 time.date.year.natAbs :=
    if_neg signed
  obtain ⟨y1, y2, y3, y4, year, _⟩ := exists_four form.date.year
  have numeric : y1.isDigit = true := isDigit_of_mem_padded 4 form.date.year y1 (by simp [year])
  simp only [DateTimeForm.chars, DateForm.chars, year, write, Date.write, sign, List.cons_append,
    List.cons.injEq] at written
  rw [written.1] at numeric
  split at numeric <;> cases numeric

end DateTime

/-! Values. -/

namespace Value

/-- What a message shows and what a store holds are both coerced to the value again. -/
def DecodesBack (value : Value) : Prop :=
  coerce (.text value.shown) = value ∧ ∃ bound, Sqlite.bind value = .text bound ∧
    coerce (.text bound) = value

theorem decodesBack_date_iff {day : Date} : (date day).DecodesBack ↔ Date.IsPlain day.year := by
  constructor
  · rintro ⟨shown, _⟩
    obtain ⟨form, _, denotes⟩ := Date.read?_eq_some_iff.mp (coerce_eq_date_iff.mp shown)
    exact denotes.isPlain
  · intro plain
    have read : coerce (.text (String.ofList day.write)) = .date day := by
      rw [coerce_eq_date_iff, String.toList_ofList, Date.read?_eq_some_iff]
      exact Date.exists_written plain
    exact ⟨read, _, rfl, read⟩

theorem decodesBack_dateTime_iff {time : DateTime} : (dateTime time).DecodesBack ↔
    Date.IsPlain time.date.year := by
  constructor
  · rintro ⟨shown, _⟩
    obtain ⟨form, written, _⟩ := DateTime.read?_eq_some_iff.mp (coerce_eq_dateTime_iff.mp shown)
    rw [Value.shown, shownChars, String.toList_ofList] at written
    exact DateTime.isPlain_of_written written
  · intro plain
    have read {separator : Char} (separated : separator ∈ ['T', ' ']) :
        coerce (.text (String.ofList (time.write separator))) = .dateTime time := by
      rw [coerce_eq_dateTime_iff, String.toList_ofList, DateTime.read?_eq_some_iff]
      exact DateTime.exists_written plain separated
    exact ⟨read (by decide), _, rfl, read (by decide)⟩

/-- Every date that a text is coerced to decodes back, and so does every date-time without an
offset. -/
theorem decodesBack_of_coerced (text : String) :
    (∀ day, coerce (.text text) = .date day → (date day).DecodesBack) ∧
      ∀ time, coerce (.text text) = .dateTime time →
        ∀ form : DateTimeForm, form.chars = text.toList → form.zone = none →
          (dateTime time).DecodesBack := by
  constructor
  · intro day coerced
    obtain ⟨form, _, denotes⟩ := Date.read?_eq_some_iff.mp (coerce_eq_date_iff.mp coerced)
    exact decodesBack_date_iff.mpr denotes.isPlain
  · intro time coerced form written noZone
    rw [coerce_eq_dateTime_iff, ← written] at coerced
    exact decodesBack_dateTime_iff.mpr ((DateTime.denotes_of_read coerced).isPlain noZone)

/-- The leap day of the year zero, and a leap second with microseconds. -/
theorem leap_second_decodesBack :
    (coerce (.text "0000-02-29")).DecodesBack ∧
      (coerce (.text "2016-12-31 23:59:60.000025")).DecodesBack := by
  let day : Date := ⟨0, 2, 29, by decide⟩
  let time : DateTime := ⟨⟨2016, 12, 31, by decide⟩, 23, 59, 59, 1000025000, by decide⟩
  let seconds : SecondsForm :=
    ⟨⟨60, by decide⟩, ['0', '0', '0', '0', '2', '5'], List.all_eq_true.mp rfl⟩
  let newYearsEve : DateForm := ⟨⟨2016, by decide⟩, ⟨12, by decide⟩, ⟨31, by decide⟩⟩
  let form : DateTimeForm :=
    ⟨newYearsEve, ' ', by decide, ⟨23, by decide⟩, ⟨59, by decide⟩, some seconds, none⟩
  have dayRead : coerce (.text "0000-02-29") = .date day := coerce_eq_date_iff.mpr (by decide)
  have timeRead : coerce (.text "2016-12-31 23:59:60.000025") = .dateTime time :=
    coerce_eq_dateTime_iff.mpr (by decide)
  have written : form.chars = "2016-12-31 23:59:60.000025".toList := by decide
  rw [dayRead, timeRead]
  exact ⟨(decodesBack_of_coerced _).1 day dayRead,
    (decodesBack_of_coerced _).2 time timeRead form written rfl⟩

end Value

end FilterQuery
