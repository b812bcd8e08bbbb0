import MetricRegistry.Timestamp.Component
import MetricRegistry.Timestamp.Fields
import MetricRegistry.Text.Ascii
import MetricRegistry.Text.Utf8

/-!
# Reading timestamps by a pattern

`readItems` takes the items of a pattern off the front of a text one by one and collects what they
say.  A later item overwrites what an earlier one of its kind said.
-/

namespace MetricRegistry.Timestamp

open Ascii

/-- Between `low` and `high` decimal digits, as many as there are, as a number. -/
def digits? (low high : Nat) (s : List UInt8) : Option (Nat × List UInt8) :=
  let ds := (s.take high).takeWhile isDigit
  if low ≤ ds.length then some (natOfDigits ds, s.drop ds.length) else none

/-- A number of `low` to `high` digits under a padding.  Spaces may stand for all digits but the
last of the least number of them. -/
def padded? (padding : Padding) (low high : Nat) (s : List UInt8) : Option (Nat × List UInt8) :=
  match padding with
  | .zero => digits? low high s
  | .none => digits? 1 high s
  | .space =>
    let pad := ((s.take (low - 1)).takeWhile (· == space)).length
    digits? (low - pad) (high - pad) (s.drop pad)

/-- A number of a fixed width within bounds. -/
def bounded? (padding : Padding) (width least most : Nat) (s : List UInt8) :
    Option (Nat × List UInt8) := do
  let (n, s) ← padded? padding width width s
  if least ≤ n && n ≤ most then some (n, s) else none

/-- A sign and what follows it: whether there is one, and whether it is a minus. -/
def sign (s : List UInt8) : Bool × Bool × List UInt8 :=
  match s with
  | [] => (false, false, [])
  | b :: rest =>
    if b == plus then (true, false, rest)
    else if b == minus then (true, true, rest)
    else (false, false, s)

/-- What follows a text, if it stands at the front. -/
def afterText? (caseSensitive : Bool) (t s : List UInt8) : Option (List UInt8) :=
  let front := s.take t.length
  if front == t || (!caseSensitive && eqIgnoringCase front t) then some (s.drop t.length) else none

/-- The place of the first of some names that stands at the front, counted from zero. -/
def nameAmong? (caseSensitive : Bool) (names : List String) (s : List UInt8) :
    Option (Nat × List UInt8) :=
  (names.zipIdx).findSome? fun (name, place) =>
    (afterText? caseSensitive (Text.utf8 name) s).map fun rest => (place, rest)

/-- The names of the months. -/
def monthNames : List String :=
  ["January", "February", "March", "April", "May", "June", "July", "August", "September",
    "October", "November", "December"]

/-- The short names of the months. -/
def shortMonthNames : List String :=
  ["Jan", "Feb", "Mar", "Apr", "May", "Jun", "Jul", "Aug", "Sep", "Oct", "Nov", "Dec"]

/-- The names of the days of the week. -/
def weekdayNames : List String :=
  ["Monday", "Tuesday", "Wednesday", "Thursday", "Friday", "Saturday", "Sunday"]

/-- The short names of the days of the week. -/
def shortWeekdayNames : List String :=
  ["Mon", "Tue", "Wed", "Thu", "Fri", "Sat", "Sun"]

/-- A month. -/
def month? (padding : Padding) (form : MonthForm) (caseSensitive : Bool) (s : List UInt8) :
    Option (Nat × List UInt8) :=
  match form with
  | .number => bounded? padding 2 1 12 s
  | .long => (nameAmong? caseSensitive monthNames s).map fun (m, s) => (m + 1, s)
  | .short => (nameAmong? caseSensitive shortMonthNames s).map fun (m, s) => (m + 1, s)

/-- A day of the week, Monday being zero. -/
def weekday? (form : WeekdayForm) (fromOne caseSensitive : Bool) (s : List UInt8) :
    Option (Nat × List UInt8) :=
  let numbered (first : Nat) : Option (Nat × List UInt8) := do
    let (n, s) ← digits? 1 1 s
    let least := if fromOne then 1 else 0
    if least ≤ n && n ≤ least + 6 then some ((n - least + first) % 7, s) else none
  match form with
  | .long => nameAmong? caseSensitive weekdayNames s
  | .short => nameAmong? caseSensitive shortWeekdayNames s
  | .fromSunday => numbered 6
  | .fromMonday => numbered 0

/-- A part of a year, with its sign. -/
def year? (padding : Padding) (form : YearForm) (signRequired : Bool) (s : List UInt8) :
    Option ((Nat × Bool) × List UInt8) :=
  match form with
  | .lastTwo => (padded? padding 2 2 s).map fun (n, s) => ((n, false), s)
  | .full => do
    let (signed, negative, s) := sign s
    if !signed && signRequired then none
    let (n, s) ← padded? padding 4 4 s
    return ((n, negative), s)
  | .century => do
    let (signed, negative, s) := sign s
    if !signed && signRequired then none
    let (n, s) ← if signed then padded? padding 2 2 s else padded? padding 1 2 s
    return ((n, negative), s)

/-- A signed number. -/
def signed (n : Nat × Bool) : Int :=
  if n.2 then -n.1 else n.1

/-- A fraction of a second in nanoseconds: a fixed number of digits, or up to 32 of which nine
count. -/
def subsecond? (digits : Option Nat) (s : List UInt8) : Option (Nat × List UInt8) :=
  let (least, most) := match digits with
    | some n => (n, n)
    | none => (1, 32)
  let ds := (s.take most).takeWhile isDigit
  if least ≤ ds.length then
    some (natOfDigits ((ds ++ List.replicate 9 zero).take 9), s.drop ds.length)
  else none

/-- The half of a day: whether it is the second. -/
def period? (lower caseSensitive : Bool) (s : List UInt8) : Option (Bool × List UInt8) :=
  (nameAmong? (caseSensitive && !lower) ["AM", "PM"] s).map fun (n, s) => (n == 1, s)

/-- The hours of an offset, with their sign. -/
def offsetHour? (padding : Padding) (signRequired : Bool) (s : List UInt8) :
    Option ((Nat × Bool) × List UInt8) := do
  let (signed, negative, s) := sign s
  let (n, s) ← bounded? padding 2 0 25 s
  if !signed && signRequired then none
  return ((n, negative), s)

/-- A count since the epoch, in nanoseconds, that lies within the years of the calendar. -/
def unixNanos? (places : Nat) (signRequired : Bool) (s : List UInt8) :
    Option (Int × List UInt8) := do
  let (isSigned, negative, s) := sign s
  let (n, s) ← digits? 1 (14 + places) s
  if !isSigned && signRequired then none
  let count := signed (n * Nat.pow 10 (9 - places), negative)
  if (Instant.ofUnixNanos? count).isNone then none
  return (count, s)

/-- Takes a component off the front of a text and adds what it says. -/
def readComponent (c : Component) (f : Fields) (s : List UInt8) : Option (Fields × List UInt8) :=
  match c with
  | .day p => (bounded? p 2 1 31 s).map fun (n, s) => ({ f with day := some n }, s)
  | .ordinal p => (bounded? p 3 1 366 s).map fun (n, s) => ({ f with ordinal := some n }, s)
  | .month p form cs => (month? p form cs s).map fun (n, s) => ({ f with month := some n }, s)
  | .year p form ofWeeks signRequired =>
    (year? p form signRequired s).map fun (n, s) =>
      (match form, ofWeeks with
        | .full, false => { f with year := some (signed n) }
        | .century, false => { f with century := some n }
        | .lastTwo, false => { f with lastTwo := some n.1 }
        | .full, true => { f with isoYear := some (signed n) }
        | .century, true => { f with isoCentury := some n }
        | .lastTwo, true => { f with isoLastTwo := some n.1 },
        s)
  | .weekday form fromOne cs =>
    (weekday? form fromOne cs s).map fun (n, s) => ({ f with weekday := some n }, s)
  | .weekNumber p .iso =>
    (bounded? p 2 1 53 s).map fun (n, s) => ({ f with isoWeek := some n }, s)
  | .weekNumber p .fromSunday =>
    (bounded? p 2 0 53 s).map fun (n, s) => ({ f with sundayWeek := some n }, s)
  | .weekNumber p .fromMonday =>
    (bounded? p 2 0 53 s).map fun (n, s) => ({ f with mondayWeek := some n }, s)
  | .hour p false => (bounded? p 2 0 23 s).map fun (n, s) => ({ f with hour := some n }, s)
  | .hour p true => (bounded? p 2 1 12 s).map fun (n, s) => ({ f with hour12 := some n }, s)
  | .minute p => (bounded? p 2 0 59 s).map fun (n, s) => ({ f with minute := some n }, s)
  | .second p => (bounded? p 2 0 60 s).map fun (n, s) => ({ f with second := some n }, s)
  | .subsecond ds => (subsecond? ds s).map fun (n, s) => ({ f with nanosecond := some n }, s)
  | .period lower cs => (period? lower cs s).map fun (b, s) => ({ f with afternoon := some b }, s)
  | .offsetHour p signRequired =>
    (offsetHour? p signRequired s).map fun (n, s) => ({ f with offsetHour := some n }, s)
  | .offsetMinute p =>
    (bounded? p 2 0 59 s).map fun (n, s) => ({ f with offsetMinute := some n }, s)
  | .offsetSecond p =>
    (bounded? p 2 0 59 s).map fun (n, s) => ({ f with offsetSecond := some n }, s)
  | .unixTimestamp places signRequired =>
    (unixNanos? places signRequired s).map fun (n, s) => ({ f with unixNanos := some n }, s)
  | .ignore count => if count ≤ s.length then some (f, s.drop count) else none
  | .finish discard => if discard || s.isEmpty then some (f, []) else none

/-- Takes an item off the front of a text. -/
def readItem (item : Item) (f : Fields) (s : List UInt8) : Option (Fields × List UInt8) :=
  match item with
  | .literal t => (afterText? true t s).map fun rest => (f, rest)
  | .component c => readComponent c f s

/-- Takes the items of a pattern off the front of a text. -/
def readItems : List Item → Fields → List UInt8 → Option (Fields × List UInt8)
  | [], f, s => some (f, s)
  | item :: items, f, s => do
    let (f, s) ← readItem item f s
    readItems items f s

/-- What a text says that the items of a pattern make up from end to end. -/
def fieldsOf? (items : List Item) (s : List UInt8) : Option Fields := do
  let (f, rest) ← readItems items {} s
  if rest.isEmpty then some f else none

end MetricRegistry.Timestamp
