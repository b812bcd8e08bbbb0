/-!
# Components of a timestamp

A pattern is a list of items, each a literal text or a component: a part of a date, a time or an
offset, with the way in which it is written.
-/

namespace MetricRegistry.Timestamp

/-- What stands in for the leading digits of a short number. -/
inductive Padding where
  /-- Zeros, so that the number has all its digits. -/
  | zero
  /-- Spaces. -/
  | space
  /-- Nothing. -/
  | none
  deriving DecidableEq, Repr

/-- The way a month is written. -/
inductive MonthForm where
  | number
  | long
  | short
  deriving DecidableEq, Repr

/-- The way a day of the week is written: a name, or a number counted from one of two days. -/
inductive WeekdayForm where
  | long
  | short
  | fromSunday
  | fromMonday
  deriving DecidableEq, Repr

/-- The way the weeks of a year are counted. -/
inductive WeekForm where
  | iso
  | fromSunday
  | fromMonday
  deriving DecidableEq, Repr

/-- The part of a year that is written. -/
inductive YearForm where
  | full
  | century
  | lastTwo
  deriving DecidableEq, Repr

/-- A part of a timestamp and the way it is written. -/
inductive Component where
  | day (padding : Padding)
  | ordinal (padding : Padding)
  | month (padding : Padding) (form : MonthForm) (caseSensitive : Bool)
  | year (padding : Padding) (form : YearForm) (ofWeeks signRequired : Bool)
  | weekday (form : WeekdayForm) (fromOne caseSensitive : Bool)
  | weekNumber (padding : Padding) (form : WeekForm)
  | hour (padding : Padding) (twelve : Bool)
  | minute (padding : Padding)
  | second (padding : Padding)
  /-- A fixed number of digits, or any number of them. -/
  | subsecond (digits : Option Nat)
  | period (lower caseSensitive : Bool)
  | offsetHour (padding : Padding) (signRequired : Bool)
  | offsetMinute (padding : Padding)
  | offsetSecond (padding : Padding)
  /-- A count of units since the epoch; a second has `10 ^ places` of them. -/
  | unixTimestamp (places : Nat) (signRequired : Bool)
  /-- So many bytes of anything. -/
  | ignore (count : Nat)
  /-- The end of the text, or all that is left of it. -/
  | finish (discard : Bool)
  deriving DecidableEq, Repr

/-- An item of a pattern. -/
inductive Item where
  | literal (bytes : List UInt8)
  | component (c : Component)
  deriving DecidableEq, Repr

/-- Why a text is not a pattern; an index counts bytes from the start of the text. -/
inductive PatternFault where
  | missingName (index : Nat)
  | unknownName (name : String) (index : Nat)
  | badModifier (text : String) (index : Nat)
  | missingModifier (name : String) (index : Nat)
  | unclosed (index : Nat)
  | nestedWithoutSpace (index : Nat)
  | nestedMissing (index : Nat)
  | nestedRepeated (index : Nat)
  | nestedUnexpected (index : Nat)
  | optionalItem (index : Nat)
  | firstItem (index : Nat)
  deriving DecidableEq, Repr

/-- The wording of a fault. -/
def PatternFault.message : PatternFault → String
  | .missingName i => s!"missing component name at byte index {i}"
  | .unknownName name i => s!"invalid component name `{name}` at byte index {i}"
  | .badModifier text i => s!"invalid modifier `{text}` at byte index {i}"
  | .missingModifier name i =>
    s!"missing required modifier `{name}` for component at byte index {i}"
  | .unclosed i => s!"unclosed opening bracket at byte index {i}"
  | .nestedWithoutSpace i =>
    s!"expected whitespace before nested format description at byte index {i}"
  | .nestedMissing i => s!"expected nested format description at byte index {i}"
  | .nestedRepeated i =>
    "more than one nested format description is not supported in `optional` components " ++
      s!"at byte index {i}"
  | .nestedUnexpected i =>
    s!"nested format descriptions is not supported in on this component at byte index {i}"
  | .optionalItem i =>
    s!"optional item is not supported in runtime-parsed format descriptions at byte index {i}"
  | .firstItem i =>
    s!"'first' item is not supported in runtime-parsed format descriptions at byte index {i}"

end MetricRegistry.Timestamp
