import FilterQuery.Proofs.ByteOrder
import FilterQuery.Proofs.Coercion
import FilterQuery.Sqlite

/-!
Dates and date-times compared as the texts that a store holds. Main statement: these texts are
ordered byte by byte as the times are, but for times after the year 9999: a year of five digits has
a sign, and comes before all others.
-/

namespace FilterQuery

open Text

namespace Text

theorem compareChars_swap (left right : List Char) :
    (compareChars left right).swap = compareChars right left :=
  Std.OrientedOrd.eq_swap.symm

theorem compareChars_nil {chars : List Char} (nonempty : chars ≠ []) :
    compareChars [] chars = .lt := by
  rw [compareChars]
  cases same : bytes chars with
  | nil =>
      obtain ⟨char, held⟩ := List.exists_mem_of_ne_nil chars nonempty
      exact absurd (List.flatMap_eq_nil_iff.mp same char held) String.utf8EncodeChar_ne_nil
  | cons first others => exact List.compare_nil_cons

end Text

/-! Fractions of a second. -/

namespace DateTime

/-- Groups of three digits, up to the last that is not zero. -/
def fractionGroups : Nat → Nat → List Char
  | 0, _ => []
  | count + 1, number =>
      if number = 0 then []
      else padded 3 (number / Nat.pow 1000 count) ++
        fractionGroups count (number % Nat.pow 1000 count)

theorem fractionGroups_ne_nil {count number : Nat} (nonzero : number ≠ 0) :
    fractionGroups (count + 1) number ≠ [] := by
  rw [fractionGroups, if_neg nonzero, padded, List.append_assoc]
  exact List.append_ne_nil_of_right_ne_nil
    _ (List.append_ne_nil_of_left_ne_nil Nat.toDigits_ne_nil _)

/-- The first group that differs decides, and the number without further groups is the smaller
one. -/
theorem compareChars_fractionGroups {count left right : Nat} (fits : left < Nat.pow 1000 count)
    (otherFits : right < Nat.pow 1000 count) :
    compareChars (fractionGroups count left) (fractionGroups count right) = compare left right := by
  induction count generalizing left right with
  | zero =>
      have same : left = right := (Nat.lt_one_iff.mp fits).trans (Nat.lt_one_iff.mp otherFits).symm
      rw [Nat.compare_eq_eq.mpr same]
      rfl
  | succ count ih =>
      have positive : 0 < Nat.pow 1000 count := Nat.pow_pos (by decide)
      have nothing : fractionGroups (count + 1) 0 = [] := rfl
      rcases Nat.eq_zero_or_pos left with rfl | nonzero <;>
        rcases Nat.eq_zero_or_pos right with rfl | otherNonzero
      · rfl
      · rw [nothing, compareChars_nil (fractionGroups_ne_nil (Nat.ne_of_gt otherNonzero)),
          Nat.compare_eq_lt.mpr otherNonzero]
      · rw [nothing, ← compareChars_swap,
          compareChars_nil (fractionGroups_ne_nil (Nat.ne_of_gt nonzero)),
          Nat.compare_eq_gt.mpr nonzero]
        rfl
      · have high {number : Nat} (small : number < Nat.pow 1000 (count + 1)) :
            number / Nat.pow 1000 count < Nat.pow 10 3 :=
          Nat.div_lt_of_lt_mul small
        rw [fractionGroups, fractionGroups, if_neg (Nat.ne_of_gt nonzero),
          if_neg (Nat.ne_of_gt otherNonzero),
          compareChars_padded (by decide) (high fits) (high otherFits),
          ih (Nat.mod_lt left positive) (Nat.mod_lt right positive),
          ← compare_combined_nat (Nat.mod_lt left positive) (Nat.mod_lt right positive),
          Nat.div_add_mod', Nat.div_add_mod']

theorem fractionText_eq {nanos : Nat} (fits : nanos < nanosPerSecond) :
    fractionText nanos = if nanos = 0 then [] else '.' :: fractionGroups 3 nanos := by
  have six {number : Nat} (small : number < Nat.pow 10 (3 + 3)) :
      padded 6 number = padded 3 (number / 1000) ++ padded 3 (number % 1000) :=
    padded_add (by decide) (by decide) small
  have nine : padded 9 nanos = padded 3 (nanos / 1000000) ++ padded 6 (nanos % 1000000) :=
    padded_add (show 0 < 3 by decide) (show 0 < 6 by decide) fits
  have group (count : Nat) {number : Nat} (nonzero : number ≠ 0) :
      fractionGroups (count + 1) number =
      padded 3 (number / Nat.pow 1000 count) ++
        fractionGroups count (number % Nat.pow 1000 count) :=
    if_neg nonzero
  have limit : nanosPerSecond = 1000000000 := rfl
  have million : Nat.pow 10 (3 + 3) = 1000000 := rfl
  rw [limit] at fits
  rw [fractionText]
  split
  case isTrue => rfl
  case isFalse nonzero =>
    have first : fractionGroups 3 nanos = padded 3 (nanos / 1000000) ++
        fractionGroups 2 (nanos % 1000000) :=
      group 2 nonzero
    split
    case isTrue whole =>
      rw [first, whole]
      exact (congrArg _ (List.append_nil _)).symm
    case isFalse more =>
      have second : fractionGroups 2 (nanos % 1000000) =
          padded 3 (nanos % 1000000 / 1000) ++ fractionGroups 1 (nanos % 1000000 % 1000) :=
        group 1 more
      have low : nanos % 1000000 % 1000 = nanos % 1000 := by omega
      rw [first, second, low]
      split
      case isTrue whole =>
        have high : nanos / 1000 / 1000 = nanos / 1000000 ∧
            nanos / 1000 % 1000 = nanos % 1000000 / 1000 := by omega
        rw [whole, six (by omega), high.1, high.2]
        simp [fractionGroups]
      case isFalse more =>
        rw [nine, six (by omega), low, group 0 more]
        simp [fractionGroups]

theorem compareChars_fractionText {left right : Nat} (fits : left < nanosPerSecond)
    (otherFits : right < nanosPerSecond) :
    compareChars (fractionText left) (fractionText right) = compare left right := by
  rw [fractionText_eq fits, fractionText_eq otherFits]
  split <;> split
  case isTrue.isTrue zero otherZero =>
    rw [zero, otherZero]
    rfl
  case isTrue.isFalse zero nonzero =>
    rw [zero, compareChars_nil (List.cons_ne_nil _ _),
      Nat.compare_eq_lt.mpr (Nat.pos_of_ne_zero nonzero)]
  case isFalse.isTrue nonzero zero =>
    rw [zero, ← compareChars_swap, compareChars_nil (List.cons_ne_nil _ _),
      Nat.compare_eq_gt.mpr (Nat.pos_of_ne_zero nonzero)]
    rfl
  case isFalse.isFalse =>
    exact (compareChars_same ['.'] _ _).trans
      (compareChars_fractionGroups (show left < Nat.pow 1000 3 from fits) otherFits)

/-! Times of day. -/

/-- The nanoseconds since the minute began; a leap second counts on. -/
def nanosOfMinute (time : DateTime) : Nat :=
  time.second * nanosPerSecond + time.nanos

def compareTimes (left right : DateTime) : Ordering :=
  (compare left.minuteNumber right.minuteNumber).then
    (compare left.nanosOfMinute right.nanosOfMinute)

theorem nanosOfMinute_eq (time : DateTime) : time.nanosOfMinute =
    (time.second + time.nanos / nanosPerSecond) * nanosPerSecond + time.nanos % nanosPerSecond := by
  rw [nanosOfMinute, Nat.add_mul, Nat.add_assoc, Nat.div_add_mod']

theorem compareChars_clockText (left right : DateTime) :
    compareChars left.clockText right.clockText =
      (compare left.hour right.hour).then
        ((compare left.minute right.minute).then
          (compare left.nanosOfMinute right.nanosOfMinute)) := by
  have valid := left.valid
  have otherValid := right.valid
  have written := left.writtenSecond.1
  have otherWritten := right.writtenSecond.1
  have hundred : Nat.pow 10 2 = 100 := rfl
  have inSecond (nanos : Nat) : nanos % nanosPerSecond < nanosPerSecond := Nat.mod_lt _ (by decide)
  rw [nanosOfMinute_eq, nanosOfMinute_eq, compare_combined_nat (inSecond _) (inSecond _),
    ← compareChars_fractionText (inSecond _) (inSecond _)]
  simp only [clockText, List.append_assoc, List.cons_append]
  rw [compareChars_field (by decide) (by omega) (by omega),
    compareChars_field (by decide) (by omega) (by omega),
    compareChars_padded (by decide) (by omega) (by omega)]

end DateTime

/-! Dates. -/

namespace Date

theorem compareChars_yearText {left right : Int}
    (alike : left = right ∨ IsPlain left ∧ IsPlain right) (after afterOther : List Char) :
    compareChars (yearText left ++ after) (yearText right ++ afterOther) =
      (compare left right).then (compareChars after afterOther) := by
  rcases alike with rfl | ⟨plain, otherPlain⟩
  · rw [compareChars_same, Int.compare_eq_eq.mpr rfl, Ordering.eq_then]
  · have fits {year : Int} (plain : IsPlain year) : year.toNat < Nat.pow 10 4 := by
      have limit : Nat.pow 10 4 = 10000 := rfl
      have := plain.2
      omega
    have written {year : Int} (plain : IsPlain year) : yearText year = padded 4 year.toNat :=
      if_pos plain
    rw [written plain, written otherPlain,
      compareChars_padded (by decide) (fits plain) (fits otherPlain), ← compare_cast,
      Int.toNat_of_nonneg plain.1, Int.toNat_of_nonneg otherPlain.1]

theorem compareChars_write {left right : Date}
    (alike : left.year = right.year ∨ IsPlain left.year ∧ IsPlain right.year)
    (after afterOther : List Char) :
    compareChars (left.write ++ after) (right.write ++ afterOther) =
      (compare left.dayNumber right.dayNumber).then (compareChars after afterOther) := by
  have small (date : Date) : date.month < Nat.pow 10 2 ∧ date.day < Nat.pow 10 2 := by
    have valid := date.valid
    have inMonth := daysInMonth_le date.year date.month
    have hundred : Nat.pow 10 2 = 100 := rfl
    omega
  have dash (rest other : List Char) : compareChars ('-' :: rest) ('-' :: other) =
      compareChars rest other :=
    compareChars_same ['-'] rest other
  simp only [write, List.append_assoc, List.cons_append]
  rw [compareChars_yearText alike, dash,
    compareChars_field (by decide) (small left).1 (small right).1,
    compareChars_padded (by decide) (small left).2 (small right).2, compare_dayNumber]
  simp only [Ordering.then_assoc]

end Date

/-! Date-times. -/

namespace DateTime

theorem compareTimes_eq (left right : DateTime) :
    left.compareTimes right = (compare left.date.dayNumber right.date.dayNumber).then
      ((compare left.hour right.hour).then
        ((compare left.minute right.minute).then
          (compare left.nanosOfMinute right.nanosOfMinute))) := by
  have valid := left.valid
  have otherValid := right.valid
  rw [compareTimes, minuteNumber, minuteNumber,
    compare_combined (by omega) (by omega), compare_cast,
    compare_combined_nat valid.2.1 otherValid.2.1]
  simp only [Ordering.then_assoc]

theorem compareChars_write {left right : DateTime}
    (alike : left.date.year = right.date.year ∨
      Date.IsPlain left.date.year ∧ Date.IsPlain right.date.year)
    (separator : Char) :
    compareChars (left.write separator) (right.write separator) = left.compareTimes right := by
  rw [write, write, Date.compareChars_write alike, compareTimes_eq, ← compareChars_clockText]
  exact congrArg _ (compareChars_same [separator] _ _)

theorem compareTimes_of_earlier {left right : DateTime}
    (earlier : left.date.year < right.date.year) :
    left.compareTimes right = .lt := by
  rw [compareTimes_eq, Int.compare_eq_lt.mpr (Date.dayNumber_lt (.inl earlier)), Ordering.lt_then]

theorem compareTimes_swap (left right : DateTime) :
    (left.compareTimes right).swap = right.compareTimes left := by
  rw [compareTimes, compareTimes, Ordering.swap_then, Int.compare_swap, Nat.compare_swap]

/-- What the text of a date-time starts with: a plus, a minus or a digit, in the order of their
bytes. -/
theorem exists_lead {time : DateTime} (reached : time.InReach) (separator : Char) :
    ∃ lead rest, time.write separator = lead :: rest ∧
      (time.date.year = 10000 ∧ lead = '+' ∨ time.date.year = -1 ∧ lead = '-' ∨
        Date.IsPlain time.date.year ∧ lead.isDigit = true) := by
  by_cases plain : Date.IsPlain time.date.year
  case pos =>
    have written : Date.yearText time.date.year = padded 4 time.date.year.toNat := if_pos plain
    have numeric := isDigit_of_mem_padded 4 time.date.year.toNat
    cases digits : padded 4 time.date.year.toNat with
    | nil => exact absurd digits (List.append_ne_nil_of_right_ne_nil _ Nat.toDigits_ne_nil)
    | cons lead rest =>
        rw [digits] at written numeric
        exact ⟨lead, _, by simp only [write, Date.write, written, List.cons_append]; rfl,
          .inr (.inr ⟨plain, numeric lead List.mem_cons_self⟩)⟩
  case neg =>
    obtain year | year : time.date.year = -1 ∨ time.date.year = 10000 := by
      rw [Date.IsPlain] at plain
      have := reached.1
      have := reached.2
      omega
    · exact ⟨'-', _, by rw [write, Date.write, year]; rfl, .inr (.inl ⟨year, rfl⟩)⟩
    · exact ⟨'+', _, by rw [write, Date.write, year]; rfl, .inl ⟨year, rfl⟩⟩

theorem compareChars_of_sign {left right : DateTime} (reached : left.InReach)
    (otherReached : right.InReach) (signed : left.date.year = 10000 ∧ right.date.year < 10000 ∨
      left.date.year = -1 ∧ Date.IsPlain right.date.year)
    (separator : Char) : compareChars (left.write separator) (right.write separator) = .lt := by
  obtain ⟨lead, rest, written, kind⟩ := exists_lead reached separator
  obtain ⟨other, others, otherWritten, otherKind⟩ := exists_lead otherReached separator
  have plus : '+'.toNat = 43 := rfl
  have minus : '-'.toNat = 45 := rfl
  have before : lead.toNat < other.toNat ∧ other.toNat < 128 := by
    rw [isDigit_iff, Date.IsPlain] at kind otherKind
    rw [Date.IsPlain] at signed
    rcases kind with ⟨_, rfl⟩ | ⟨_, rfl⟩ | _ <;>
      rcases otherKind with ⟨_, rfl⟩ | ⟨_, rfl⟩ | _ <;> omega
  rw [written, otherWritten, compareChars_ascii (Nat.lt_trans before.1 before.2) before.2,
    Nat.compare_eq_lt.mpr before.1, Ordering.lt_then]

theorem compareChars_write_of_earlier {left right : DateTime} (reached : left.InReach)
    (otherReached : right.InReach) (earlier : left.date.year < right.date.year) (separator : Char) :
    compareChars (left.write separator) (right.write separator) = left.compareTimes right ↔
      (left.date.year ≤ 9999 ↔ right.date.year ≤ 9999) := by
  have := reached.1
  have := otherReached.2
  rw [compareTimes_of_earlier earlier]
  rcases Int.lt_or_le 9999 right.date.year with beyond | within
  case inl =>
    -- The later year has five digits, so its text comes first.
    have sign := compareChars_of_sign otherReached reached (.inl ⟨by omega, by omega⟩) separator
    rw [← compareChars_swap, sign]
    simp only [Ordering.swap_lt, reduceCtorEq, false_iff]
    omega
  case inr =>
    have ordered : compareChars (left.write separator) (right.write separator) = .lt := by
      by_cases negative : left.date.year = -1
      case pos =>
        exact compareChars_of_sign reached otherReached
          (.inr ⟨negative, by omega, within⟩) separator
      case neg =>
        rw [compareChars_write (.inr ⟨⟨by omega, by omega⟩, by omega, within⟩),
          compareTimes_of_earlier earlier]
    rw [ordered]
    simp only [true_iff]
    omega

theorem compareChars_write_iff {left right : DateTime} (reached : left.InReach)
    (otherReached : right.InReach) (separator : Char) :
    compareChars (left.write separator) (right.write separator) = left.compareTimes right ↔
      (left.date.year ≤ 9999 ↔ right.date.year ≤ 9999) := by
  rcases Int.lt_trichotomy left.date.year right.date.year with earlier | same | later
  · exact compareChars_write_of_earlier reached otherReached earlier separator
  · rw [compareChars_write (.inl same), same]
    simp
  · rw [← compareChars_swap, ← compareTimes_swap, Ordering.swap_inj]
    exact (compareChars_write_of_earlier otherReached reached later separator).trans Iff.comm

end DateTime

/-! Bound texts. -/

namespace Sqlite

def Cell.compare? : Cell → Cell → Option Ordering
  | .text left, .text right => some (Text.compareBytes left right)
  | _, _ => none

/-- Coerced dates are bound as texts in the order of their days. Coerced date-times are bound as
texts in the order of the times, unless one of the years has four digits and the other five. -/
theorem compare?_bind_coerced (text other : String) :
    (∀ day otherDay, Value.coerce (.text text) = .date day →
      Value.coerce (.text other) = .date otherDay →
        (bind (.date day)).compare? (bind (.date otherDay)) =
        some (compare day.dayNumber otherDay.dayNumber)) ∧
      (∀ time otherTime, Value.coerce (.text text) = .dateTime time →
        Value.coerce (.text other) = .dateTime otherTime →
        ((bind (.dateTime time)).compare? (bind (.dateTime otherTime)) =
          some (time.compareTimes otherTime) ↔
          (time.date.year ≤ 9999 ↔ otherTime.date.year ≤ 9999))) := by
  constructor
  · intro day otherDay coerced otherCoerced
    obtain ⟨form, _, denotes⟩ := Date.read?_eq_some_iff.mp (Value.coerce_eq_date_iff.mp coerced)
    obtain ⟨otherForm, _, otherDenotes⟩ :=
      Date.read?_eq_some_iff.mp (Value.coerce_eq_date_iff.mp otherCoerced)
    have ordered := Date.compareChars_write (.inr ⟨denotes.isPlain, otherDenotes.isPlain⟩) [] []
    rw [List.append_nil, List.append_nil] at ordered
    rw [bind, bind, Cell.compare?, Text.compareBytes_ofList, ordered]
    exact congrArg some Ordering.then_eq
  · intro time otherTime coerced otherCoerced
    obtain ⟨form, _, denotes⟩ :=
      DateTime.read?_eq_some_iff.mp (Value.coerce_eq_dateTime_iff.mp coerced)
    obtain ⟨otherForm, _, otherDenotes⟩ :=
      DateTime.read?_eq_some_iff.mp (Value.coerce_eq_dateTime_iff.mp otherCoerced)
    rw [bind, bind, Cell.compare?, Text.compareBytes_ofList, Option.some.injEq]
    exact DateTime.compareChars_write_iff denotes.inReach otherDenotes.inReach ' '

/-- A leap second comes before the new year, and the twenty-ninth of February before March. -/
theorem leap_second_in_order :
    (bind (Value.coerce (.text "2016-02-29"))).compare?
      (bind (Value.coerce (.text "2016-03-01"))) = some .lt ∧
      (bind (Value.coerce (.text "2016-12-31T23:59:60.25Z"))).compare?
        (bind (Value.coerce (.text "2017-01-01 00:00"))) = some .lt := by
  let day : Date := ⟨2016, 2, 29, by decide⟩
  let march : Date := ⟨2016, 3, 1, by decide⟩
  let leap : DateTime := ⟨⟨2016, 12, 31, by decide⟩, 23, 59, 59, 1250000000, by decide⟩
  let newYear : DateTime := ⟨⟨2017, 1, 1, by decide⟩, 0, 0, 0, 0, by decide⟩
  have dayRead : Value.coerce (.text "2016-02-29") = .date day := rfl
  have marchRead : Value.coerce (.text "2016-03-01") = .date march := rfl
  have leapRead : Value.coerce (.text "2016-12-31T23:59:60.25Z") = .dateTime leap :=
    Value.coerce_eq_dateTime_iff.mpr (by decide)
  have newYearRead : Value.coerce (.text "2017-01-01 00:00") = .dateTime newYear :=
    Value.coerce_eq_dateTime_iff.mpr (by decide)
  rw [dayRead, marchRead, leapRead, newYearRead,
    (compare?_bind_coerced _ _).1 day march dayRead marchRead,
    ((compare?_bind_coerced _ _).2 leap newYear leapRead newYearRead).mpr (by decide)]
  exact ⟨by decide, by decide⟩

/-- A time of the year 10000 is bound as a text before that of any time of the years before. -/
theorem last_time_before_all :
    ∃ time otherTime, Value.coerce (.text "9999-12-31T23:59:59-00:01") = .dateTime time ∧
      Value.coerce (.text "2018-12-15T08:00:23") = .dateTime otherTime ∧
        time.compareTimes otherTime = .gt ∧
          (bind (.dateTime time)).compare? (bind (.dateTime otherTime)) = some .lt :=
  ⟨_, _, rfl, rfl, by decide, by decide⟩

end Sqlite

end FilterQuery
