/-! # Instants — points in time on the universal clock

    A date belongs to the Gregorian calendar, extended to all years from
    −262143 to 262142.  An instant is a date with a time of day to the
    nanosecond; the last second of a minute may hold a leap second, which shows
    as nanoseconds of one second and more.

    * `Date.of?` and `Instant.of?` build them from their fields;
    * `Instant.unixSeconds` and `Instant.ofUnix?` count from 1970. -/

namespace HealthWatch

/-- A year with a twenty-ninth of February. -/
def isLeapYear (year : Int) : Bool :=
  year % 4 = 0 && (year % 100 ≠ 0 || year % 400 = 0)

/-- The number of days of a month. -/
def daysInMonth (year : Int) (month : Nat) : Nat :=
  if month = 2 then (if isLeapYear year then 29 else 28)
  else if month = 4 || month = 6 || month = 9 || month = 11 then 30
  else 31

/-- A day of the calendar. -/
structure Date where
  year : Int
  month : Nat
  day : Nat
  year_ge : -262143 ≤ year
  year_le : year ≤ 262142
  month_ge : 1 ≤ month
  month_le : month ≤ 12
  day_ge : 1 ≤ day
  day_le : day ≤ daysInMonth year month
deriving DecidableEq, Repr

namespace Date

/-- The day of a year, month and day that exist. -/
def of? (year : Int) (month day : Nat) : Option Date :=
  if h : -262143 ≤ year ∧ year ≤ 262142 ∧ 1 ≤ month ∧ month ≤ 12 ∧ 1 ≤ day
      ∧ day ≤ daysInMonth year month then
    some ⟨year, month, day, h.1, h.2.1, h.2.2.1, h.2.2.2.1, h.2.2.2.2.1, h.2.2.2.2.2⟩
  else none

/-- The number of days since 1 January 1970.  Years are counted from March, so
    that a leap day is the last one of its year. -/
def toDays (d : Date) : Int :=
  let y := if d.month ≤ 2 then d.year - 1 else d.year
  let era := y / 400
  let yearOfEra := y % 400
  let fromMarch : Int := (d.month + 9) % 12
  let dayOfYear := (153 * fromMarch + 2) / 5 + d.day - 1
  era * 146097 + yearOfEra * 365 + yearOfEra / 4 - yearOfEra / 100 + dayOfYear - 719468

/-- The day so many days after 1 January 1970. -/
def ofDays? (days : Int) : Option Date :=
  let z := days + 719468
  let era := z / 146097
  let dayOfEra := z % 146097
  let yearOfEra := (dayOfEra - dayOfEra / 1460 + dayOfEra / 36524 - dayOfEra / 146096) / 365
  let dayOfYear := dayOfEra - (365 * yearOfEra + yearOfEra / 4 - yearOfEra / 100)
  let fromMarch := (5 * dayOfYear + 2) / 153
  let day := (dayOfYear - (153 * fromMarch + 2) / 5 + 1).toNat
  let month := ((fromMarch + 2) % 12 + 1).toNat
  let year := yearOfEra + era * 400
  of? (if month ≤ 2 then year + 1 else year) month day

end Date

/-- A point in time. -/
structure Instant where
  date : Date
  hour : Nat
  minute : Nat
  second : Nat
  nanos : Nat
  hour_lt : hour < 24
  minute_lt : minute < 60
  second_lt : second < 60
  nanos_lt : nanos < 1000000000 ∨ (second = 59 ∧ nanos < 2000000000)
deriving DecidableEq, Repr

namespace Instant

/-- The instant of a date and a time of day in range. -/
def of? (date : Date) (hour minute second nanos : Nat) : Option Instant :=
  if h : hour < 24 ∧ minute < 60 ∧ second < 60
      ∧ (nanos < 1000000000 ∨ (second = 59 ∧ nanos < 2000000000)) then
    some ⟨date, hour, minute, second, nanos, h.1, h.2.1, h.2.2.1, h.2.2.2⟩
  else none

/-- The seconds since the start of 1970; a leap second counts with the second
    before it. -/
def unixSeconds (t : Instant) : Int :=
  t.date.toDays * 86400 + (t.hour * 3600 + t.minute * 60 + t.second : Nat)

/-- The instant so many seconds after the start of 1970, with nanoseconds. -/
def ofUnix? (seconds : Int) (nanos : Nat) : Option Instant := do
  let date ← Date.ofDays? (seconds / 86400)
  let rest := (seconds % 86400).toNat
  of? date (rest / 3600) (rest % 3600 / 60) (rest % 60) nanos

/-- The start of 1970. -/
def epoch : Instant :=
  ⟨⟨1970, 1, 1, by decide, by decide, by decide, by decide, by decide, by decide⟩,
    0, 0, 0, 0, by decide, by decide, by decide, by decide⟩

instance : Inhabited Instant := ⟨epoch⟩

/-- Whether an instant lies in a leap second. -/
def isLeap (t : Instant) : Bool := 1000000000 ≤ t.nanos

end Instant

end HealthWatch
