import MetricRegistry.Json.Fault
import MetricRegistry.Json.Value
import MetricRegistry.Text.Ascii

/-!
# Numbers in JSON

A numeral is a whole part without superfluous zeros, an optional fraction and an optional exponent.
`number` reads one and gives its value; it refuses a numeral beyond the range of double precision.
`skipNumber` only checks the form, and is the stricter of the two at the end of the text, where it
finds a fault of form instead of a text cut short.
-/

namespace MetricRegistry.Json

open Ascii

/-- Rounds to 53 significant bits, a tie to the even neighbour. -/
def roundTo53 (n : Nat) : Nat :=
  if n.log2 < 53 then n
  else
    let shift := n.log2 - 52
    let unit := 1 <<< shift
    let low := n / unit
    let rest := n % unit
    let up := unit < 2 * rest || (unit == 2 * rest && low % 2 == 1)
    (if up then low + 1 else low) * unit

/-- Whether a scaled significand lies beyond the range of double precision, as the product of the
rounded significand and the rounded power of ten does. -/
def outOfRange (significand : Nat) (exponent : Int) : Bool :=
  significand != 0 && 0 ≤ exponent &&
    (308 < exponent ||
      1024 ≤ (roundTo53 (roundTo53 significand * roundTo53 (Nat.pow 10 exponent.toNat))).log2)

/-- Takes digits into a significand as long as it keeps within 64 bits; gives the significand and
the digits left over. -/
def takeDigits (significand : Nat) : List UInt8 → Nat × List UInt8
  | [] => (significand, [])
  | d :: ds =>
    let next := significand * 10 + (digit? d).getD 0
    if next < UInt64.size then takeDigits next ds else (significand, d :: ds)

/-- The parts of a numeral; an absent fraction has no digits. -/
structure Numeral where
  negative : Bool
  whole : List UInt8
  fraction : List UInt8
  exponent : Option Int
  deriving DecidableEq, Repr

/-- The scaled significand of a numeral. -/
def Numeral.scaled (n : Numeral) : Nat × Int :=
  let (significand, dropped) := takeDigits 0 n.whole
  let (significand, left) := takeDigits significand n.fraction
  (significand, dropped.length - (n.fraction.length - left.length) + n.exponent.getD 0)

/-- The number that a numeral denotes, unless it is out of range.  A plain integer beyond 64 bits,
and a negative zero, count as reals. -/
def Numeral.value? (n : Numeral) : Option Number :=
  let whole := natOfDigits n.whole
  if n.fraction.isEmpty && n.exponent.isNone && !n.negative && whole < UInt64.size then
    some (.integer whole)
  else if n.fraction.isEmpty && n.exponent.isNone && n.negative && 0 < whole
      && whole ≤ UInt64.size / 2 then
    some (.integer (-whole))
  else
    let (significand, exponent) := n.scaled
    if outOfRange significand exponent then none
    else some (.real n.negative significand exponent)

/-- The whole part of a numeral: a zero alone, or digits that start with another. -/
def wholePart (atEnd : Fault) : Reader (List UInt8)
  | [] => .error atEnd
  | b :: s =>
    if b == zero then
      match s with
      | [] => .ok ([b], s)
      | d :: _ => if isDigit d then .error .malformed else .ok ([b], s)
    else if isDigit b then .ok (b :: s.takeWhile isDigit, s.dropWhile isDigit)
    else .error .malformed

/-- One digit or more. -/
def someDigits (atEnd : Fault) (s : List UInt8) : Except Fault (List UInt8 × List UInt8) :=
  match s with
  | [] => .error atEnd
  | b :: _ =>
    if isDigit b then .ok (s.takeWhile isDigit, s.dropWhile isDigit) else .error .malformed

/-- The fraction of a numeral, if a point follows. -/
def fractionPart (atEnd : Fault) : Reader (List UInt8)
  | [] => .ok ([], [])
  | b :: s => if b == dot then someDigits atEnd s else .ok ([], b :: s)

/-- A sign and what follows it; no sign counts as plus. -/
def optionalSign : List UInt8 → Bool × List UInt8
  | [] => (false, [])
  | b :: s => if b == plus then (false, s) else if b == minus then (true, s) else (false, b :: s)

/-- The exponent of a numeral, if its letter follows. -/
def exponentPart (atEnd : Fault) : Reader (Option Int)
  | [] => .ok (none, [])
  | b :: s =>
    if b == lowerE || b == upperE then do
      let (negative, s) := optionalSign s
      let (digits, s) ← someDigits atEnd s
      let magnitude : Int := natOfDigits digits
      return (some (if negative then -magnitude else magnitude), s)
    else .ok (none, b :: s)

/-- A leading minus and what follows it. -/
def leadingMinus : List UInt8 → Bool × List UInt8
  | [] => (false, [])
  | b :: s => if b == minus then (true, s) else (false, b :: s)

/-- The form of a numeral.  `atEnd` is the fault of a text that ends inside it. -/
def numeral (atEnd : Fault) : Reader Numeral := fun s => do
  let (negative, s) := leadingMinus s
  let (whole, s) ← wholePart atEnd s
  let (fraction, s) ← fractionPart atEnd s
  let (exponent, s) ← exponentPart atEnd s
  return (⟨negative, whole, fraction, exponent⟩, s)

/-- Reads a number. -/
def number : Reader Number := fun s => do
  let (n, s) ← numeral .truncated s
  match n.value? with
  | some v => return (v, s)
  | none => throw .malformed

/-- Passes over a number. -/
def skipNumber (s : List UInt8) : Except Fault (List UInt8) := do
  let (_, s) ← numeral .malformed s
  return s

end MetricRegistry.Json
