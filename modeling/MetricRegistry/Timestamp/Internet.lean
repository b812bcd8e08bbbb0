import MetricRegistry.Timestamp.Match

/-!
# The Internet timestamp

The fixed notation `YYYY-MM-DDTHH:MM:SS`, perhaps with a fraction, and an offset.  A second of
number 60 stands for the last nanosecond before it, and only where a leap second may be: at the end
of a month at UTC.
-/

namespace MetricRegistry.Timestamp

open Ascii

/-- Takes a byte off the front of a text. -/
def afterByte? (b : UInt8) : List UInt8 → Option (List UInt8)
  | [] => none
  | c :: s => if c == b then some s else none

/-- The fraction of a second, if a point follows. -/
def internetFraction? (s : List UInt8) : Option (Nat × List UInt8) :=
  match s with
  | [] => some (0, [])
  | b :: rest => if b == dot then subsecondAll? rest else some (0, s)
where
  /-- One digit or more, of which nine count. -/
  subsecondAll? (s : List UInt8) : Option (Nat × List UInt8) :=
    let ds := s.takeWhile isDigit
    if ds.isEmpty then none
    else some (natOfDigits ((ds ++ List.replicate 9 zero).take 9), s.drop ds.length)

/-- The offset in seconds: `Z`, or hours and minutes after a sign. -/
def internetOffset? (s : List UInt8) : Option (Int × List UInt8) :=
  match s with
  | [] => none
  | b :: rest =>
    if b == upperZ || b == lowerZ then some (0, rest)
    else do
      let (isSigned, negative, s) := sign s
      if !isSigned then none
      let (h, s) ← bounded? .zero 2 0 23 s
      let s ← afterByte? colon s
      let (m, s) ← bounded? .zero 2 0 59 s
      return (signed (h * 3600 + m * 60, negative), s)

/-- Whether the clock at UTC shows the last second of a month. -/
def endsUtcMonth (t : Instant) : Bool :=
  let time := t.atUtc.localTime
  let date := t.atUtc.localDate
  time.hour == 23 && time.minute == 59 && time.second == 59 && Date.yearInRange date.year
    && date.endsMonth

/-- Reads an Internet timestamp from end to end. -/
def internet? (s : List UInt8) : Option Instant := do
  let (year, s) ← digits? 4 4 s
  let s ← afterByte? minus s
  let (month, s) ← bounded? .zero 2 1 12 s
  let s ← afterByte? minus s
  let (day, s) ← bounded? .zero 2 1 31 s
  let s := s.drop 1
  let (hour, s) ← bounded? .zero 2 0 23 s
  let s ← afterByte? colon s
  let (minute, s) ← bounded? .zero 2 0 59 s
  let s ← afterByte? colon s
  let (second, s) ← bounded? .zero 2 0 60 s
  let (nanosecond, s) ← internetFraction? s
  let (offset, s) ← internetOffset? s
  if !s.isEmpty then none
  let date ← Date.ofCalendar? year month day
  if second == 60 then
    let time ← TimeOfDay.ofParts? hour minute 59 999999999
    let t := Instant.ofLocal date time offset
    if endsUtcMonth t then some t else none
  else
    let time ← TimeOfDay.ofParts? hour minute second nanosecond
    return Instant.ofLocal date time offset

end MetricRegistry.Timestamp
