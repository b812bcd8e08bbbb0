import MetricRegistry.Timestamp.Instant

/-!
# What a timestamp says

`Fields` holds the parts of a date, a time and an offset that were read from a text, each at most
once.  `Fields.instant?` makes an instant of them in one of three ways, the first that has what it
needs: `zoned?` with a date, a time and an offset, or with a count since the epoch; `utc?` with a
date and a time, taken to be at UTC; `midnight?` with a date alone.
-/

namespace MetricRegistry.Timestamp

/-- The parts of a timestamp that a text gave. -/
structure Fields where
  year : Option Int := none
  /-- The first digits of a year, and whether a minus stands before them. -/
  century : Option (Nat × Bool) := none
  lastTwo : Option Nat := none
  isoYear : Option Int := none
  isoCentury : Option (Nat × Bool) := none
  isoLastTwo : Option Nat := none
  month : Option Nat := none
  day : Option Nat := none
  ordinal : Option Nat := none
  isoWeek : Option Nat := none
  sundayWeek : Option Nat := none
  mondayWeek : Option Nat := none
  /-- A day of the week, Monday being zero. -/
  weekday : Option Nat := none
  hour : Option Nat := none
  /-- An hour of half a day, from 1 to 12. -/
  hour12 : Option Nat := none
  /-- Whether the hour belongs to the second half of the day. -/
  afternoon : Option Bool := none
  minute : Option Nat := none
  second : Option Nat := none
  nanosecond : Option Nat := none
  /-- The hours of an offset, and whether a minus stands before them. -/
  offsetHour : Option (Nat × Bool) := none
  offsetMinute : Option Nat := none
  offsetSecond : Option Nat := none
  unixNanos : Option Int := none
  deriving DecidableEq, Repr

namespace Fields

/-- A year from its first digits and its last two. -/
def joinCentury (century : Nat × Bool) (lastTwo : Nat) : Int :=
  let n : Int := 100 * century.1 + lastTwo
  if century.2 then -n else n

/-- The calendar year, written in full or in two halves. -/
def fullYear? (f : Fields) : Option Int :=
  match f.year, f.century, f.lastTwo with
  | some y, _, _ => some y
  | none, some c, some l => some (joinCentury c l)
  | _, _, _ => none

/-- The year that is counted in weeks, written in full or in two halves. -/
def fullIsoYear? (f : Fields) : Option Int :=
  match f.isoYear, f.isoCentury, f.isoLastTwo with
  | some y, _, _ => some y
  | none, some c, some l => some (joinCentury c l)
  | _, _, _ => none

/-- The date.  The first way of naming a day whose parts are all there decides. -/
def date? (f : Fields) : Option Date :=
  match f.fullYear?, f.ordinal, f.month, f.day with
  | some y, some o, _, _ => Date.ofOrdinal? y o
  | some y, none, some m, some d => Date.ofCalendar? y m d
  | year, _, _, _ =>
    match f.fullIsoYear?, f.isoWeek, f.weekday with
    | some y, some w, some d => Date.ofWeek? y w d
    | _, _, weekday =>
      match year, f.sundayWeek, f.mondayWeek, weekday with
      | some y, some w, _, some d => Date.ofYearWeek? y w ((d + 1) % 7)
      | some y, none, some w, some d => Date.ofYearWeek? y w d
      | _, _, _, _ => none

/-- The hour of the day. -/
def fullHour? (f : Fields) : Option Nat :=
  match f.hour, f.hour12, f.afternoon with
  | some h, _, _ => some h
  | none, some h, some afternoon => some (h % 12 + if afternoon then 12 else 0)
  | _, _, _ => none

/-- The time of day.  Parts may be missing from the small end only. -/
def time? (f : Fields) : Option TimeOfDay := do
  let h ← f.fullHour?
  match f.minute, f.second, f.nanosecond with
  | none, none, none => TimeOfDay.ofParts? h 0 0 0
  | some m, none, none => TimeOfDay.ofParts? h m 0 0
  | some m, some s, none => TimeOfDay.ofParts? h m s 0
  | some m, some s, some n => TimeOfDay.ofParts? h m s n
  | _, _, _ => none

/-- The offset in seconds.  It needs its hours, and its seconds count only beside its minutes. -/
def offset? (f : Fields) : Option Int := do
  let (h, negative) ← f.offsetHour
  let small : Nat := match f.offsetMinute with
    | some m => m * 60 + f.offsetSecond.getD 0
    | none => 0
  let n : Int := h * 3600 + small
  return if negative then -n else n

/-- The instant of a count since the epoch, or of a date, a time and an offset. -/
def zoned? (f : Fields) : Option Instant :=
  match f.unixNanos with
  | some n => do
    let t ← Instant.ofUnixNanos? n
    return match f.nanosecond with
      | some ns => t.withNanosecond ns
      | none => t
  | none => do return Instant.ofLocal (← f.date?) (← f.time?) (← f.offset?)

/-- The instant of a date and a time at UTC. -/
def utc? (f : Fields) : Option Instant := do
  return Instant.ofLocal (← f.date?) (← f.time?) 0

/-- The instant at which a date starts at UTC. -/
def midnight? (f : Fields) : Option Instant := do
  return Instant.ofLocal (← f.date?) TimeOfDay.midnight 0

/-- The instant that a timestamp stands for. -/
def instant? (f : Fields) : Option Instant :=
  f.zoned? <|> f.utc? <|> f.midnight?

end Fields

end MetricRegistry.Timestamp
