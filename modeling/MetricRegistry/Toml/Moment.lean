import MetricRegistry.Timestamp.Calendar
import MetricRegistry.Toml.Number

/-!
# Moments in TOML

`moment` reads a date, a time of day, or a date and a time with or without an offset from UTC.
-/

namespace MetricRegistry.Toml

/-- Passes over a character. -/
def passChar (c : Char) : List Char → Option (List Char)
  | [] => none
  | d :: s => if d == c then some s else none

/-- Reads a number of exactly so many digits that lies between two bounds. -/
def numberWithin (count low high : Nat) : Reader Nat := fun s =>
  let ds := s.take count
  let n := natOfDigits 10 ds
  if ds.length == count && ds.all Char.isDigit && low ≤ n && n ≤ high then some (n, s.drop count)
  else none

/-- Passes over a date, which has to be in the calendar. -/
def passDate (s : List Char) : Option (List Char) := do
  let (year, s) ← numberWithin 4 0 9999 s
  let s ← passChar '-' s
  let (month, s) ← numberWithin 2 1 12 s
  let s ← passChar '-' s
  let (_, s) ← numberWithin 2 1 (Timestamp.daysInMonth year month) s
  return s

/-- Passes over a fraction of a second, if one comes next. -/
def passFraction : List Char → Option (List Char)
  | '.' :: c :: s => if c.isDigit then some (s.dropWhile Char.isDigit) else none
  | s => some s

/-- Passes over a time of day. -/
def passTime (s : List Char) : Option (List Char) := do
  let (_, s) ← numberWithin 2 0 23 s
  let s ← passChar ':' s
  let (_, s) ← numberWithin 2 0 59 s
  let s ← passChar ':' s
  let (_, s) ← numberWithin 2 0 60 s
  passFraction s

/-- Passes over hours and minutes. -/
def passHourMinute (s : List Char) : Option (List Char) := do
  let (_, s) ← numberWithin 2 0 23 s
  let s ← passChar ':' s
  let (_, s) ← numberWithin 2 0 59 s
  return s

/-- Passes over an offset from UTC, if one comes next. -/
def passOffset : List Char → Option (List Char)
  | 'Z' :: s => some s
  | 'z' :: s => some s
  | '+' :: s => passHourMinute s
  | '-' :: s => passHourMinute s
  | s => some s

/-- Passes over a time after a date, if one comes next. -/
def passTimeAfterDate (s : List Char) : List Char :=
  match s with
  | c :: rest =>
    if c == 'T' || c == 't' || c == ' ' then ((passTime rest).bind passOffset).getD s else s
  | [] => s

/-- Reads a moment. -/
def moment : Reader Node := fun s => do
  let rest ← (passDate s).map passTimeAfterDate <|> passTime s
  return (.moment (written s rest), rest)

end MetricRegistry.Toml
