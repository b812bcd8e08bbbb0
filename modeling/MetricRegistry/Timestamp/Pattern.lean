import MetricRegistry.Timestamp.Component
import MetricRegistry.Text.Utf8

/-!
# Reading patterns

A pattern is literal text in which `[name key:value …]` stands for a component and `[[` for an
opening bracket.  `Pattern.read` gives its items, or the first fault from left to right.

No component accepts descriptions nested in it, yet they are read, since what follows them is
looked at first.  A nested description that turns out to be faulty is given up where its fault
showed: the component goes on from there, and the brackets left open stay counted as open.
-/

namespace MetricRegistry.Timestamp

namespace Pattern

/-- A blank between the words of a component. -/
def isGap (c : Char) : Bool :=
  c == ' ' || c == '\t' || c == '\n' || c == '\x0c' || c == '\r'

/-- A character that belongs to a word of a component. -/
def isWordChar (c : Char) : Bool :=
  !isGap c && c != '[' && c != ']' && c != '\\'

/-- The number of bytes of some characters. -/
def byteCount : List Char → Nat
  | [] => 0
  | c :: cs => c.utf8Size + byteCount cs

/-- A word of a pattern with its place. -/
structure Word where
  text : String
  index : Nat
  deriving DecidableEq, Repr

/-- A word without regard to the case of its letters. -/
def Word.folded (w : Word) : String :=
  w.text.toLower

/-- A key and the value it is given. -/
structure Modifier where
  key : Word
  value : Word
  deriving DecidableEq, Repr

/-- Splits a word at its first colon. -/
def modifierOf (word : List Char) (index : Nat) : Except PatternFault Modifier :=
  let key := word.takeWhile (· != ':')
  let rest := word.dropWhile (· != ':')
  match rest with
  | [] => .error (.badModifier (String.ofList word) index)
  | _ :: value =>
    if key.isEmpty then .error (.badModifier "" index)
    else if value.isEmpty then .error (.badModifier "" (index + byteCount key))
    else
      .ok ⟨⟨String.ofList key, index⟩, ⟨String.ofList value, index + byteCount key + 1⟩⟩

/-- How far a pattern has been read. -/
structure Place where
  /-- The characters that are left. -/
  rest : List Char
  /-- The number of bytes before them. -/
  index : Nat
  /-- The number of brackets that count as open. -/
  opened : Nat

/-- A step of reading, which gives a value or a fault.  What it has read stays read also where it
ends in a fault. -/
abbrev Reading := EStateM PatternFault Place

/-- Passes over the characters before the first that fails a condition. -/
def passWhile (p : Char → Bool) : Reading (List Char) := fun s =>
  let front := s.rest.takeWhile p
  .ok front { s with rest := s.rest.dropWhile p, index := s.index + byteCount front }

/-- Passes over some characters of literal text. -/
def pass (count : Nat) : Reading Unit := fun s =>
  .ok () { s with rest := s.rest.drop count, index := s.index + byteCount (s.rest.take count) }

/-- Passes over an opening bracket and counts it. -/
def passOpening : Reading Unit := fun s =>
  .ok () ⟨s.rest.drop 1, s.index + 1, s.opened + 1⟩

/-- Passes over a closing bracket, which has to come next, and takes one off the count. -/
def passClosing (otherwise : PatternFault) : Reading Unit := fun s =>
  match s.rest with
  | ']' :: rest => .ok () ⟨rest, s.index + 1, s.opened - 1⟩
  | _ => .error otherwise s

/-- The number of brackets that may be open at once. -/
def mostOpened : Nat := 255

/-- Whether a nested description opens here.  Components and nested descriptions open by turns, so
it can open only where the number of open brackets is odd. -/
def Place.opensNested (s : Place) : Bool :=
  s.rest.head? == some '[' && s.opened % 2 == 1 && s.opened < mostOpened

/-- The modifiers of a component, and whether a gap comes after them. -/
def modifiers : Nat → Reading (List Modifier × Bool)
  | 0 => return ([], false)
  | rounds + 1 => do
    let gap ← passWhile isGap
    if gap.isEmpty then return ([], false)
    let index := (← get).index
    let word ← passWhile isWordChar
    if word.isEmpty then return ([], true)
    let m ← liftExcept (modifierOf word index)
    let (ms, gap) ← modifiers rounds
    return (m :: ms, gap)

/-- A component in brackets, before its name and its modifiers are looked up. -/
inductive Bracketed where
  | component (name : Word) (modifiers : List Modifier)
  /-- A part that may be absent; it opens at an index. -/
  | optional (index : Nat)
  /-- A choice of parts; it opens at an index. -/
  | first (index : Nat)
  deriving DecidableEq, Repr

/-- Checks the modifiers of an optional part. -/
def checkOptionalModifiers : List Modifier → Except PatternFault Unit
  | [] => .ok ()
  | m :: ms =>
    if m.key.folded != "format" then .error (.badModifier m.key.text m.key.index)
    else if m.value.folded != "true" && m.value.folded != "false" then
      .error (.badModifier m.value.text m.value.index)
    else checkOptionalModifiers ms

/-- What a component in brackets is, from its words and the indices of the brackets nested in it.
`opening` and `closing` are the indices of its own. -/
def classify (opening closing : Nat) (name : Word) (modifiers : List Modifier)
    (nested : List Nat) (gap : Bool) : Except PatternFault Bracketed :=
  match nested with
  | index :: more =>
    if !gap then .error (.nestedWithoutSpace index)
    else if name.folded == "optional" then do
      checkOptionalModifiers modifiers
      if more.isEmpty then return .optional opening else throw (.nestedRepeated index)
    else if name.folded == "first" then
      match modifiers with
      | [] => .ok (.first opening)
      | m :: _ => .error (.badModifier m.key.text m.key.index)
    else .error (.nestedUnexpected opening)
  | [] =>
    if name.folded == "optional" then do
      checkOptionalModifiers modifiers
      throw (.nestedMissing closing)
    else if name.folded == "first" then
      match modifiers with
      | [] => .ok (.first opening)
      | m :: _ => .error (.badModifier m.key.text m.key.index)
    else .ok (.component name modifiers)

/-- A modifier that a component takes, and the values it may have. -/
structure Choice where
  key : String
  accepts : String → Bool

/-- Checks that every modifier is one that a component takes, with a value it may have. -/
def checkModifiers (choices : List Choice) : List Modifier → Except PatternFault Unit
  | [] => .ok ()
  | m :: ms =>
    match choices.find? (·.key == m.key.folded) with
    | none => .error (.badModifier m.key.text m.key.index)
    | some choice =>
      if choice.accepts m.value.folded then checkModifiers choices ms
      else .error (.badModifier m.value.text m.value.index)

/-- The last value that a key is given. -/
def valueOf (key : String) (ms : List Modifier) : Option String :=
  ((ms.filter (·.key.folded == key)).getLast?).map (·.value.folded)

/-- A choice between words. -/
def oneOf (key : String) (values : List String) : Choice :=
  ⟨key, fun v => values.contains v⟩

/-- The choice of what stands in for leading digits. -/
def paddingChoice : Choice := oneOf "padding" ["zero", "space", "none"]

/-- What stands in for leading digits. -/
def padding (ms : List Modifier) : Padding :=
  match valueOf "padding" ms with
  | some "space" => .space
  | some "none" => .none
  | _ => .zero

/-- The choice of whether letters have to be in the right case. -/
def caseChoice : Choice := oneOf "case_sensitive" ["true", "false"]

/-- Whether letters have to be in the right case. -/
def caseSensitive (ms : List Modifier) : Bool :=
  valueOf "case_sensitive" ms != some "false"

/-- The choice of whether a sign has to be written. -/
def signChoice : Choice := oneOf "sign" ["automatic", "mandatory"]

/-- Whether a sign has to be written. -/
def signRequired (ms : List Modifier) : Bool :=
  valueOf "sign" ms == some "mandatory"

/-- A count of bytes: decimal digits, perhaps after a plus, for a number of 16 bits above zero. -/
def count? (s : String) : Option Nat :=
  let digits := match s.toList with
    | '+' :: cs => cs
    | cs => cs
  if digits.isEmpty || !digits.all Char.isDigit then none
  else
    let n := Nat.ofDigitChars 10 digits 0
    if 1 ≤ n && n < UInt16.size then some n else none

/-- The way a month is written. -/
def monthForm (ms : List Modifier) : MonthForm :=
  match valueOf "repr" ms with
  | some "long" => .long
  | some "short" => .short
  | _ => .number

/-- The way a day of the week is written. -/
def weekdayForm (ms : List Modifier) : WeekdayForm :=
  match valueOf "repr" ms with
  | some "short" => .short
  | some "sunday" => .fromSunday
  | some "monday" => .fromMonday
  | _ => .long

/-- The way the weeks of a year are counted. -/
def weekForm (ms : List Modifier) : WeekForm :=
  match valueOf "repr" ms with
  | some "sunday" => .fromSunday
  | some "monday" => .fromMonday
  | _ => .iso

/-- The part of a year that is written. -/
def yearForm (ms : List Modifier) : YearForm :=
  match valueOf "repr" ms with
  | some "century" => .century
  | some "last_two" => .lastTwo
  | _ => .full

/-- The decimal places that a count since the epoch has. -/
def places (ms : List Modifier) : Nat :=
  match valueOf "precision" ms with
  | some "millisecond" => 3
  | some "microsecond" => 6
  | some "nanosecond" => 9
  | _ => 0

/-- The number of digits of a fraction of a second. -/
def subsecondDigits (ms : List Modifier) : Option Nat :=
  match valueOf "digits" ms with
  | some "1" => some 1
  | some "2" => some 2
  | some "3" => some 3
  | some "4" => some 4
  | some "5" => some 5
  | some "6" => some 6
  | some "7" => some 7
  | some "8" => some 8
  | some "9" => some 9
  | _ => none

/-- The component with a name and modifiers. -/
def componentOf (name : Word) (ms : List Modifier) : Except PatternFault Component :=
  match name.folded with
  | "day" => do
    checkModifiers [paddingChoice] ms
    return .day (padding ms)
  | "minute" => do
    checkModifiers [paddingChoice] ms
    return .minute (padding ms)
  | "second" => do
    checkModifiers [paddingChoice] ms
    return .second (padding ms)
  | "ordinal" => do
    checkModifiers [paddingChoice] ms
    return .ordinal (padding ms)
  | "offset_minute" => do
    checkModifiers [paddingChoice] ms
    return .offsetMinute (padding ms)
  | "offset_second" => do
    checkModifiers [paddingChoice] ms
    return .offsetSecond (padding ms)
  | "hour" => do
    checkModifiers [paddingChoice, oneOf "repr" ["24", "12"]] ms
    return .hour (padding ms) (valueOf "repr" ms == some "12")
  | "month" => do
    checkModifiers [paddingChoice, oneOf "repr" ["numerical", "long", "short"], caseChoice] ms
    return .month (padding ms) (monthForm ms) (caseSensitive ms)
  | "offset_hour" => do
    checkModifiers [paddingChoice, signChoice] ms
    return .offsetHour (padding ms) (signRequired ms)
  | "period" => do
    checkModifiers [oneOf "case" ["upper", "lower"], caseChoice] ms
    return .period (valueOf "case" ms == some "lower") (caseSensitive ms)
  | "subsecond" => do
    checkModifiers [oneOf "digits" ["1", "2", "3", "4", "5", "6", "7", "8", "9", "1+"]] ms
    return .subsecond (subsecondDigits ms)
  | "unix_timestamp" => do
    checkModifiers
      [oneOf "precision" ["second", "millisecond", "microsecond", "nanosecond"], signChoice] ms
    return .unixTimestamp (places ms) (signRequired ms)
  | "weekday" => do
    checkModifiers
      [oneOf "repr" ["long", "short", "sunday", "monday"], oneOf "one_indexed" ["true", "false"],
        caseChoice] ms
    return .weekday (weekdayForm ms) (valueOf "one_indexed" ms != some "false") (caseSensitive ms)
  | "week_number" => do
    checkModifiers [paddingChoice, oneOf "repr" ["iso", "sunday", "monday"]] ms
    return .weekNumber (padding ms) (weekForm ms)
  | "year" => do
    checkModifiers
      [paddingChoice, oneOf "repr" ["full", "century", "last_two"],
        oneOf "range" ["extended", "standard"], oneOf "base" ["calendar", "iso_week"],
        signChoice] ms
    return .year (padding ms) (yearForm ms) (valueOf "base" ms == some "iso_week")
      (signRequired ms)
  | "ignore" => do
    checkModifiers [⟨"count", fun v => (count? v).isSome⟩] ms
    match (valueOf "count" ms).bind count? with
    | some n => return .ignore n
    | none => throw (.missingModifier "count" name.index)
  | "end" => do
    checkModifiers [oneOf "trailing_input" ["prohibit", "discard"]] ms
    return .finish (valueOf "trailing_input" ms == some "discard")
  | _ => .error (.unknownName name.text name.index)

/-- The component that brackets stand for, unless they stand for a part that only a pattern fixed
in advance may have. -/
def Bracketed.component? : Bracketed → Except PatternFault Component
  | .component name ms => componentOf name ms
  | .optional index => .error (.optionalItem index)
  | .first index => .error (.firstItem index)

mutual

/-- Reads a component from its opening bracket up to and with the closing one. -/
def component : Nat → Reading Component
  | 0 => do throw (.unclosed (← get).index)
  | rounds + 1 => do
    let opening := (← get).index
    passOpening
    let gap ← passWhile isGap
    let index := (← get).index
    let name ← passWhile isWordChar
    if name.isEmpty then throw (.missingName (if gap.isEmpty then opening else opening + 1))
    let (ms, gap) ← modifiers rounds
    let nested ← nestedParts false rounds
    let closing := (← get).index
    passClosing (.unclosed opening)
    let b ← liftExcept (classify opening closing ⟨String.ofList name, index⟩ ms nested gap)
    liftExcept b.component?

/-- The indices of the descriptions nested in a component, up to the first that is faulty.
`earlier` tells whether one has been read before. -/
def nestedParts (earlier : Bool) : Nat → Reading (List Nat)
  | 0 => return []
  | rounds + 1 => do
    let start ← get
    if !start.opensNested then return []
    match nested rounds start with
    | .ok () s =>
      set s
      let _ ← passWhile isGap
      let more ← nestedParts true rounds
      return start.index :: more
    | .error _ s =>
      set s
      if earlier then
        let _ ← passWhile isGap
      return []

/-- Passes over a nested description with its brackets. -/
def nested : Nat → Reading Unit
  | 0 => do throw (.unclosed (← get).index)
  | rounds + 1 => do
    let opening := (← get).index
    passOpening
    nestedText rounds
    passClosing (.unclosed opening)

/-- Passes over literal text and components, up to a closing bracket or the end. -/
def nestedText : Nat → Reading Unit
  | 0 => return ()
  | rounds + 1 => do
    match (← get).rest with
    | [] => return ()
    | ']' :: _ => return ()
    | '[' :: '[' :: _ =>
      pass 2
      nestedText rounds
    | '[' :: _ =>
      let _ ← component rounds
      nestedText rounds
    | _ =>
      pass 1
      nestedText rounds

end

/-- Puts a literal character in front of the items that follow it. -/
def consLiteral (c : Char) (items : List Item) : List Item :=
  match items with
  | .literal bytes :: items => .literal (String.utf8EncodeChar c ++ bytes) :: items
  | items => .literal (String.utf8EncodeChar c) :: items

/-- The items of the rest of a pattern.  `budget` bounds the rounds that one component takes. -/
def items (budget : Nat) : Nat → Reading (List Item)
  | 0 => return []
  | rounds + 1 => do
    match (← get).rest with
    | [] => return []
    | '[' :: '[' :: _ =>
      pass 2
      return consLiteral '[' (← items budget rounds)
    | '[' :: _ =>
      let c ← component budget
      return .component c :: (← items budget rounds)
    | c :: _ =>
      pass 1
      return consLiteral c (← items budget rounds)

/-- The items of a pattern, or its first fault.  Reading a component takes at most three rounds for
each of its characters. -/
def read (pattern : String) : Except PatternFault (List Item) :=
  let size := pattern.length
  match items (3 * size + 3) (size + 1) ⟨pattern.toList, 0, 0⟩ with
  | .ok items _ => .ok items
  | .error fault _ => .error fault

end Pattern

end MetricRegistry.Timestamp
