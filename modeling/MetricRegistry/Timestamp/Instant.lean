import MetricRegistry.Timestamp.Calendar

/-!
# Instants

An `Instant` is a point in time and the offset from UTC at which it was written.  `Instant.ofLocal`
builds one from a date, a time of day and an offset; `Instant.local` gives them back.
-/

namespace MetricRegistry.Timestamp

/-- Nanoseconds of a second. -/
def nanosPerSecond : Int := 1000000000

/-- Nanoseconds of a day. -/
def nanosPerDay : Int := 86400 * nanosPerSecond

/-- A time of day. -/
structure TimeOfDay where
  hour : Nat
  minute : Nat
  second : Nat
  nanosecond : Nat
  deriving DecidableEq, Repr

namespace TimeOfDay

/-- The start of a day. -/
def midnight : TimeOfDay := ⟨0, 0, 0, 0⟩

/-- A time of day whose parts are in range; a second has no number 60. -/
def ofParts? (hour minute second nanosecond : Nat) : Option TimeOfDay :=
  if hour ≤ 23 && minute ≤ 59 && second ≤ 59 && nanosecond ≤ 999999999 then
    some ⟨hour, minute, second, nanosecond⟩
  else none

/-- Nanoseconds since midnight. -/
def nanos (t : TimeOfDay) : Int :=
  (t.hour * 3600 + t.minute * 60 + t.second) * nanosPerSecond + t.nanosecond

/-- The time of day some nanoseconds after midnight. -/
def ofNanos (n : Int) : TimeOfDay :=
  let seconds := (n / nanosPerSecond).toNat
  ⟨seconds / 3600, seconds / 60 % 60, seconds % 60, (n % nanosPerSecond).toNat⟩

end TimeOfDay

/-- A point in time, and the seconds by which the clock that showed it was ahead of UTC. -/
structure Instant where
  unixNanos : Int
  offset : Int
  deriving DecidableEq, Repr

namespace Instant

/-- The first second of the year -9999, in seconds from the epoch. -/
def minSeconds : Int := -377705116800

/-- The last second of the year 9999, in seconds from the epoch. -/
def maxSeconds : Int := 253402300799

/-- The instant some seconds after the epoch, at UTC, within the years of the calendar. -/
def ofUnixSeconds? (n : Int) : Option Instant :=
  if minSeconds ≤ n && n ≤ maxSeconds then some ⟨n * nanosPerSecond, 0⟩ else none

/-- The instant with a nanosecond in place of its own. -/
def withNanosecond (t : Instant) (nanosecond : Nat) : Instant :=
  { t with unixNanos := t.unixNanos / nanosPerSecond * nanosPerSecond + nanosecond }

/-- The instant some nanoseconds after the epoch, at UTC, within the years of the calendar. -/
def ofUnixNanos? (n : Int) : Option Instant :=
  (ofUnixSeconds? (n / nanosPerSecond)).map fun t => t.withNanosecond (n % nanosPerSecond).toNat

/-- The instant at which a clock with an offset shows a date and a time of day. -/
def ofLocal (date : Date) (time : TimeOfDay) (offset : Int) : Instant :=
  ⟨date.day * nanosPerDay + time.nanos - offset * nanosPerSecond, offset⟩

/-- What the clock of an instant shows, in nanoseconds from its own epoch. -/
def localNanos (t : Instant) : Int :=
  t.unixNanos + t.offset * nanosPerSecond

/-- The date that the clock of an instant shows. -/
def localDate (t : Instant) : Date :=
  Date.ofDay (t.localNanos / nanosPerDay)

/-- The time of day that the clock of an instant shows. -/
def localTime (t : Instant) : TimeOfDay :=
  TimeOfDay.ofNanos (t.localNanos % nanosPerDay)

/-- An instant on a clock that shows UTC. -/
def atUtc (t : Instant) : Instant :=
  { t with offset := 0 }

end Instant

end MetricRegistry.Timestamp
