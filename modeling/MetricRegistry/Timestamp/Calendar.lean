/-!
# The calendar

Days of the proleptic Gregorian calendar.  A `Date` is a year and a day of that year; `Date.day`
counts days from the first of January 1970 and `Date.ofDay` turns a count into a date again.
-/

namespace MetricRegistry.Timestamp

/-- Years with a 29th of February. -/
def isLeapYear (year : Int) : Bool :=
  year % 4 == 0 && (year % 100 != 0 || year % 400 == 0)

/-- The number of days of a year. -/
def daysInYear (year : Int) : Nat :=
  if isLeapYear year then 366 else 365

/-- The number of days of a month; no other number names a month. -/
def daysInMonth (year : Int) (month : Nat) : Nat :=
  match month with
  | 1 | 3 | 5 | 7 | 8 | 10 | 12 => 31
  | 4 | 6 | 9 | 11 => 30
  | 2 => if isLeapYear year then 29 else 28
  | _ => 0

/-- The number of days of a year that come before a month. -/
def daysBeforeMonth (year : Int) (month : Nat) : Nat :=
  (List.range (month - 1)).foldl (fun days m => days + daysInMonth year (m + 1)) 0

/-- The number of days from the first of January of the year 1 to that of a year. -/
def daysBeforeYear (year : Int) : Int :=
  let y := year - 1
  365 * y + y / 4 - y / 100 + y / 400

/-- A day, as a year and the day's place in it, counted from one. -/
structure Date where
  year : Int
  ordinal : Nat
  deriving DecidableEq, Repr

namespace Date

/-- The years that a date may lie in. -/
def yearInRange (year : Int) : Bool :=
  -9999 ≤ year && year ≤ 9999

/-- The date with a place in a year. -/
def ofOrdinal? (year : Int) (ordinal : Int) : Option Date :=
  if yearInRange year && 1 ≤ ordinal && ordinal ≤ daysInYear year then
    some ⟨year, ordinal.toNat⟩
  else none

/-- The date with a month and a day of the month. -/
def ofCalendar? (year : Int) (month day : Nat) : Option Date :=
  if yearInRange year && 1 ≤ day && day ≤ daysInMonth year month then
    some ⟨year, daysBeforeMonth year month + day⟩
  else none

/-- Days since the first of January 1970. -/
def day (d : Date) : Int :=
  daysBeforeYear d.year + d.ordinal - 1 - daysBeforeYear 1970

/-- The date that lies some days after the first of January 1970. -/
def ofDay (day : Int) : Date :=
  let n := day + daysBeforeYear 1970
  let guess := n * 400 / 146097 + 1
  let year :=
    if n < daysBeforeYear guess then guess - 1
    else if daysBeforeYear (guess + 1) ≤ n then guess + 1
    else guess
  ⟨year, (n - daysBeforeYear year + 1).toNat⟩

/-- The place of a date in its week, Monday being zero. -/
def weekday (d : Date) : Nat :=
  ((d.day + 3) % 7).toNat

/-- Finds the month of a place in the year, and the place in the month. -/
def splitMonth (year : Int) : List Nat → Nat → Nat × Nat
  | [], n => (12, n)
  | m :: ms, n =>
    if n ≤ daysInMonth year m then (m, n) else splitMonth year ms (n - daysInMonth year m)

/-- The month of a date and its day of the month. -/
def monthDay (d : Date) : Nat × Nat :=
  splitMonth d.year ((List.range 12).map (· + 1)) d.ordinal

/-- Whether a date is the last of its month. -/
def endsMonth (d : Date) : Bool :=
  d.monthDay.2 == daysInMonth d.year d.monthDay.1

/-- The number of weeks of a year that is counted in weeks from Monday. -/
def weeksInYear (year : Int) : Nat :=
  let first := (Date.mk year 1).weekday
  if first == 3 || (first == 2 && isLeapYear year) then 53 else 52

/-- The date with a place in a week of a year that is counted in weeks from Monday: the first week
is the one that holds the fourth of January. -/
def ofWeek? (year : Int) (week weekday : Nat) : Option Date :=
  if yearInRange year && 1 ≤ week && week ≤ weeksInYear year then
    let fourth := Date.mk year 4
    let date := ofDay (fourth.day - fourth.weekday + 7 * (week - 1) + weekday)
    if yearInRange date.year then some date else none
  else none

/-- The days of a calendar year that its week zero lacks: those of the first week of January before
the first of the month, all seven if that is a Monday. -/
def missingDays (year : Int) : Nat :=
  let first := (Date.mk year 1).weekday
  if first == 0 then 7 else first

/-- The date with a place in a week of a calendar year.  The weeks are counted from the first
Monday, what comes before it being week zero; `place` counts the days of a week from zero. -/
def ofYearWeek? (year : Int) (week place : Nat) : Option Date :=
  ofOrdinal? year (7 * week + place - missingDays year + 1)

end Date

end MetricRegistry.Timestamp
