import FilterQuery.Calendar

/-!
Dates and date-times in the ISO 8601 form with padded fields. A date-time separates its date by `T`
or a space, may leave out the seconds, and may end in an offset; the result is then the universal
time. A date-time with an offset must have seconds. Text of any other form is no date, however close
it comes.
-/

namespace FilterQuery

def Date.read? : List Char → Option Date
  | [y1, y2, y3, y4, '-', m1, m2, '-', d1, d2] => do
      let year ← Text.number? [y1, y2, y3, y4]
      let month ← Text.number? [m1, m2]
      let day ← Text.number? [d1, d2]
      Date.of? year month day
  | _ => none

/-- Seconds with their fraction in nanoseconds; digits past the ninth are dropped. -/
structure Seconds where
  second : Nat
  nanos : Nat
  deriving DecidableEq, Repr

namespace Seconds

def nanosOf? (digits : List Char) : Option Nat :=
  Text.number? (digits.take 9 ++ List.replicate (9 - digits.length) '0')

def readFraction? (text : List Char) : Option (Nat × List Char) :=
  match text with
  | '.' :: rest =>
      let (digits, rest) := rest.span Char.isDigit
      if digits.isEmpty then none else (nanosOf? digits).map (·, rest)
  | rest => some (0, rest)

def read? (text : List Char) : Option (Option Seconds × List Char) :=
  match text with
  | ':' :: s1 :: s2 :: rest => do
      let second ← Text.number? [s1, s2]
      let (nanos, rest) ← readFraction? rest
      some (some ⟨second, nanos⟩, rest)
  | rest => some (none, rest)

end Seconds

namespace Offset

def of? (isAhead : Bool) (hours minutes : Nat) : Option Offset :=
  if bounded : hours ≤ 23 ∧ minutes ≤ 59 then
    let total : Int := hours * 60 + minutes
    some ⟨if isAhead then total else -total, by split <;> omega⟩
  else none

def read? : List Char → Option Offset
  | ['Z'] => some ⟨0, by decide⟩
  | [sign, h1, h2, ':', m1, m2] => do
      let hours ← Text.number? [h1, h2]
      let minutes ← Text.number? [m1, m2]
      if sign = '+' then of? true hours minutes
      else if sign = '-' then of? false hours minutes
      else none
  | _ => none

end Offset

namespace DateTime

-- Second sixty is the leap second of its minute; the calendar does not say which minutes have one.
def ofClock? (date : Date) (hour minute : Nat) (seconds : Seconds) : Option DateTime :=
  if seconds.second = 60 then of? date hour minute 59 (seconds.nanos + nanosPerSecond)
  else of? date hour minute seconds.second seconds.nanos

def read? : List Char → Option DateTime
  | y1 :: y2 :: y3 :: y4 :: '-' :: m1 :: m2 :: '-' :: d1 :: d2 :: separator ::
      h1 :: h2 :: ':' :: n1 :: n2 :: rest => do
      let date ← Date.read? [y1, y2, y3, y4, '-', m1, m2, '-', d1, d2]
      let hour ← Text.number? [h1, h2]
      let minute ← Text.number? [n1, n2]
      let (seconds, rest) ← Seconds.read? rest
      if separator = 'T' ∨ separator = ' ' then
        match seconds, rest with
        | seconds, [] => ofClock? date hour minute (seconds.getD ⟨0, 0⟩)
        | some seconds, zone => do
            let offset ← Offset.read? zone
            let time ← ofClock? date hour minute seconds
            some (time.toUniversal offset)
        | none, _ :: _ => none
      else none
  | _ => none

end DateTime

end FilterQuery
