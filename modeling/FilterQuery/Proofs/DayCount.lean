import FilterQuery.Calendar

/-!
Days and minutes counted from one beginning, in both directions. The count follows the calendar: the
next date is one day further, the previous one day back, and a later date has the greater number.
Main statement: the universal time is as many minutes from the local time as the offset says, over
the end of any hour, day, month or year.
-/

namespace FilterQuery

def daysInYear (year : Int) : Nat :=
  if isLeapYear year then 366 else 365

/-- The days before a year; day one is the first of January of year one. -/
def daysBeforeYear (year : Int) : Int :=
  365 * (year - 1) + (year - 1) / 4 - (year - 1) / 100 + (year - 1) / 400

def daysBeforeMonth (year : Int) : Nat → Nat
  | 0 | 1 => 0
  | month + 2 => daysBeforeMonth year (month + 1) + daysInMonth year (month + 1)

theorem daysInMonth_le (year : Int) (month : Nat) : daysInMonth year month ≤ 31 := by
  unfold daysInMonth
  repeat' split
  all_goals decide

theorem daysBeforeYear_succ (year : Int) :
    daysBeforeYear (year + 1) = daysBeforeYear year + daysInYear year := by
  unfold daysBeforeYear daysInYear isLeapYear
  split <;> rename_i leap <;> simp at leap <;> omega

theorem daysBeforeYear_mono {year later : Int} (before : year ≤ later) :
    daysBeforeYear year ≤ daysBeforeYear later := by
  unfold daysBeforeYear
  omega

theorem daysBeforeMonth_succ {month : Nat} (positive : 1 ≤ month) (year : Int) :
    daysBeforeMonth year (month + 1) = daysBeforeMonth year month + daysInMonth year month := by
  obtain ⟨before, rfl⟩ := Nat.exists_eq_add_of_le' positive
  rfl

theorem daysBeforeMonth_mono {month later : Nat} (before : month ≤ later) (year : Int) :
    daysBeforeMonth year month ≤ daysBeforeMonth year later := by
  induction before with
  | refl => exact Nat.le_refl _
  | @step last _ ih =>
      refine Nat.le_trans ih ?_
      cases last with
      | zero => exact Nat.le_refl 0
      | succ last => exact Nat.le_add_right _ _

theorem daysBeforeMonth_thirteen (year : Int) : daysBeforeMonth year 13 = daysInYear year := by
  simp only [daysBeforeMonth, daysInMonth, daysInYear]
  cases isLeapYear year <;> rfl

namespace Date

def dayNumber (date : Date) : Int :=
  daysBeforeYear date.year + daysBeforeMonth date.year date.month + date.day

theorem dayNumber_next (date : Date) : date.next.dayNumber = date.dayNumber + 1 := by
  have valid := date.valid
  have monthEnd := daysBeforeMonth_succ valid.1 date.year
  unfold next
  split
  case isTrue => simp only [dayNumber]; omega
  case isFalse lastOfMonth =>
    split
    case isTrue => simp only [dayNumber]; omega
    case isFalse =>
      have december : date.month = 12 := by omega
      rw [december] at lastOfMonth
      rw [december, daysBeforeMonth_thirteen] at monthEnd
      have yearStart : daysBeforeMonth (date.year + 1) 1 = 0 := rfl
      simp only [dayNumber, december, daysBeforeYear_succ, yearStart] at valid ⊢
      omega

theorem dayNumber_previous (date : Date) : date.previous.dayNumber = date.dayNumber - 1 := by
  have valid := date.valid
  unfold previous
  split
  case isTrue => simp only [dayNumber]; omega
  case isFalse =>
    split
    case isTrue inYear =>
      have monthEnd := daysBeforeMonth_succ (show 1 ≤ date.month - 1 by omega) date.year
      rw [Nat.sub_add_cancel valid.1] at monthEnd
      simp only [dayNumber]
      omega
    case isFalse =>
      have january : date.month = 1 := by omega
      have yearEnd := daysBeforeYear_succ (date.year - 1)
      have monthEnd := daysBeforeMonth_succ (show 1 ≤ 12 by decide) (date.year - 1)
      have yearStart : daysBeforeMonth date.year 1 = 0 := rfl
      rw [Int.sub_add_cancel] at yearEnd
      rw [daysBeforeMonth_thirteen, daysInMonth_december] at monthEnd
      simp only [dayNumber, january, yearStart]
      omega

theorem dayNumber_lt {date later : Date}
    (before : date.year < later.year ∨ date.year = later.year ∧ date.month < later.month) :
    date.dayNumber < later.dayNumber := by
  have valid := date.valid
  have laterValid := later.valid
  have monthEnd := daysBeforeMonth_succ valid.1 date.year
  unfold dayNumber
  rcases before with earlier | ⟨same, earlier⟩
  case inl =>
    have inYear := daysBeforeMonth_mono (show date.month + 1 ≤ 13 by omega) date.year
    have yearEnd := daysBeforeYear_succ date.year
    have upToYear := daysBeforeYear_mono (show date.year + 1 ≤ later.year from earlier)
    rw [daysBeforeMonth_thirteen] at inYear
    omega
  case inr =>
    have upToMonth :=
      daysBeforeMonth_mono (show date.month + 1 ≤ later.month from earlier) date.year
    rw [← same]
    omega

theorem compare_dayNumber (left right : Date) :
    compare left.dayNumber right.dayNumber =
      (compare left.year right.year).then
        ((compare left.month right.month).then (compare left.day right.day)) := by
  rcases Int.lt_trichotomy left.year right.year with less | sameYear | more
  · rw [Int.compare_eq_lt.mpr less, Int.compare_eq_lt.mpr (dayNumber_lt (.inl less)),
      Ordering.lt_then]
  · rw [Int.compare_eq_eq.mpr sameYear, Ordering.eq_then]
    rcases Nat.lt_trichotomy left.month right.month with less | sameMonth | more
    · rw [Nat.compare_eq_lt.mpr less, Int.compare_eq_lt.mpr (dayNumber_lt (.inr ⟨sameYear, less⟩)),
        Ordering.lt_then]
    · rw [Nat.compare_eq_eq.mpr sameMonth, Ordering.eq_then, dayNumber, dayNumber,
        sameYear, sameMonth]
      simp only [Int.compare_eq_ite_lt, Nat.compare_eq_ite_lt,
        Int.add_lt_add_iff_left, Int.ofNat_lt]
    · rw [Nat.compare_eq_gt.mpr more,
        Int.compare_eq_gt.mpr (dayNumber_lt (.inr ⟨sameYear.symm, more⟩)), Ordering.gt_then]
  · rw [Int.compare_eq_gt.mpr more, Int.compare_eq_gt.mpr (dayNumber_lt (.inl more)),
      Ordering.gt_then]

theorem dayNumber_inj {left right : Date} : left.dayNumber = right.dayNumber ↔ left = right := by
  rw [← Int.compare_eq_eq, compare_dayNumber, Ordering.then_eq_eq, Ordering.then_eq_eq,
    Int.compare_eq_eq, Nat.compare_eq_eq, Nat.compare_eq_eq, mk.injEq]

theorem year_next (date : Date) : date.next.year = date.year ∨ date.next.year = date.year + 1 := by
  unfold next
  split
  · exact .inl rfl
  · split
    · exact .inl rfl
    · exact .inr rfl

theorem year_previous (date : Date) :
    date.previous.year = date.year ∨ date.previous.year = date.year - 1 := by
  unfold previous
  split
  · exact .inl rfl
  · split
    · exact .inl rfl
    · exact .inr rfl

end Date

namespace DateTime

def minuteNumber (time : DateTime) : Int :=
  time.date.dayNumber * 1440 + (time.hour * 60 + time.minute : Nat)

theorem minuteNumber_toUniversal (time : DateTime) (offset : Offset) :
    (time.toUniversal offset).minuteNumber = time.minuteNumber - offset.minutes := by
  have valid := time.valid
  have bounded := offset.bounded
  have before := time.date.dayNumber_previous
  have after := time.date.dayNumber_next
  simp only [minuteNumber, toUniversal]
  split
  · omega
  · split <;> omega

theorem writtenSecond (time : DateTime) :
    time.second + time.nanos / nanosPerSecond ≤ 60 ∧
      time.second = min (time.second + time.nanos / nanosPerSecond) 59 ∧
        time.nanos = time.nanos % nanosPerSecond +
          if time.second + time.nanos / nanosPerSecond = 60 then nanosPerSecond else 0 := by
  have valid := time.valid
  have limit : nanosPerSecond = 1000000000 := rfl
  rw [limit] at valid ⊢
  refine ⟨by omega, by omega, ?_⟩
  split <;> omega

theorem eq_of_minuteNumber {left right : DateTime} (minute : left.minuteNumber = right.minuteNumber)
    (second : left.second = right.second) (nanos : left.nanos = right.nanos) : left = right := by
  have valid := left.valid
  have otherValid := right.valid
  unfold minuteNumber at minute
  have sameDate : left.date = right.date := Date.dayNumber_inj.mp (by omega)
  have sameHour : left.hour = right.hour := by rw [sameDate] at minute; omega
  have sameMinute : left.minute = right.minute := by rw [sameDate] at minute; omega
  cases left
  cases right
  simp_all

end DateTime

end FilterQuery
