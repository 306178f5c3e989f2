import FilterQuery.Text.Digits

/-!
Dates of the Gregorian calendar, in every year before and after year zero, and times of day to the
nanosecond. A leap second is the last second of a minute with a fraction of one second or more.
-/

namespace FilterQuery

def isLeapYear (year : Int) : Bool :=
  year % 4 = 0 && (year % 100 ≠ 0 || year % 400 = 0)

def daysInMonth (year : Int) (month : Nat) : Nat :=
  if month = 2 then (if isLeapYear year then 29 else 28)
  else if month = 4 ∨ month = 6 ∨ month = 9 ∨ month = 11 then 30
  else 31

theorem daysInMonth_pos (year : Int) (month : Nat) : 1 ≤ daysInMonth year month := by
  unfold daysInMonth
  repeat' split
  all_goals decide

theorem daysInMonth_december (year : Int) : daysInMonth year 12 = 31 := rfl

structure Date where
  year : Int
  month : Nat
  day : Nat
  valid : 1 ≤ month ∧ month ≤ 12 ∧ 1 ≤ day ∧ day ≤ daysInMonth year month
  deriving DecidableEq, Repr

namespace Date

def of? (year : Int) (month day : Nat) : Option Date :=
  if valid : 1 ≤ month ∧ month ≤ 12 ∧ 1 ≤ day ∧ day ≤ daysInMonth year month then
    some ⟨year, month, day, valid⟩
  else none

def next (date : Date) : Date :=
  if inMonth : date.day < daysInMonth date.year date.month then
    ⟨date.year, date.month, date.day + 1, by have := date.valid; omega⟩
  else if inYear : date.month < 12 then
    ⟨date.year, date.month + 1, 1, by
      have := date.valid
      have := daysInMonth_pos date.year (date.month + 1)
      omega⟩
  else
    ⟨date.year + 1, 1, 1, by decide, by decide, by decide, daysInMonth_pos _ _⟩

def previous (date : Date) : Date :=
  if inMonth : 1 < date.day then
    ⟨date.year, date.month, date.day - 1, by have := date.valid; omega⟩
  else if inYear : 1 < date.month then
    ⟨date.year, date.month - 1, daysInMonth date.year (date.month - 1), by
      have := date.valid
      have := daysInMonth_pos date.year (date.month - 1)
      omega⟩
  else
    ⟨date.year - 1, 12, 31, by decide, by decide, by decide, Nat.le_refl 31⟩

/-- Four digits; a year that needs a sign or more digits has a sign, always. -/
def yearText (year : Int) : List Char :=
  if 0 ≤ year ∧ year ≤ 9999 then Text.padded 4 year.toNat
  else (if year < 0 then '-' else '+') :: Text.padded 4 year.natAbs

def write (date : Date) : List Char :=
  yearText date.year ++ '-' :: Text.padded 2 date.month ++ '-' :: Text.padded 2 date.day

end Date

def nanosPerSecond : Nat := 1000000000

/-- The time of day of `nanos` past a full second. -/
structure DateTime where
  date : Date
  hour : Nat
  minute : Nat
  second : Nat
  nanos : Nat
  valid : hour < 24 ∧ minute < 60 ∧ second < 60 ∧ nanos < 2 * nanosPerSecond ∧
    (nanosPerSecond ≤ nanos → second = 59)
  deriving DecidableEq, Repr

/-- How far a local time is ahead of universal time; less than a day. -/
structure Offset where
  minutes : Int
  bounded : -1440 < minutes ∧ minutes < 1440
  deriving DecidableEq, Repr

namespace DateTime

def of? (date : Date) (hour minute second nanos : Nat) : Option DateTime :=
  if valid : hour < 24 ∧ minute < 60 ∧ second < 60 ∧ nanos < 2 * nanosPerSecond ∧
      (nanosPerSecond ≤ nanos → second = 59) then
    some ⟨date, hour, minute, second, nanos, valid⟩
  else none

-- Offsets are whole minutes, so seconds stay, and a leap second with them.
def toUniversal (time : DateTime) (offset : Offset) : DateTime :=
  let total : Int := time.hour * 60 + time.minute - offset.minutes
  let minuteOfDay := (total % 1440).toNat
  let date := if total < 0 then time.date.previous
    else if total < 1440 then time.date
    else time.date.next
  ⟨date, minuteOfDay / 60, minuteOfDay % 60, time.second, time.nanos, by
    have := time.valid
    omega⟩

/-- Nothing for a full second, otherwise the fewest of three, six or nine digits that lose
nothing. -/
def fractionText (nanos : Nat) : List Char :=
  if nanos = 0 then []
  else if nanos % 1000000 = 0 then '.' :: Text.padded 3 (nanos / 1000000)
  else if nanos % 1000 = 0 then '.' :: Text.padded 6 (nanos / 1000)
  else '.' :: Text.padded 9 nanos

-- A leap second is written as second sixty.
def clockText (time : DateTime) : List Char :=
  Text.padded 2 time.hour ++ ':' :: Text.padded 2 time.minute ++
    ':' :: Text.padded 2 (time.second + time.nanos / nanosPerSecond) ++
    fractionText (time.nanos % nanosPerSecond)

def write (separator : Char) (time : DateTime) : List Char :=
  time.date.write ++ separator :: time.clockText

end DateTime

end FilterQuery
