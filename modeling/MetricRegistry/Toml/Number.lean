import MetricRegistry.Toml.Node
import MetricRegistry.Toml.Text

/-!
# Numbers in TOML

`integer` reads an integer of 64 bits in one of four bases, and `real` any other number: one with a
fraction, an exponent or both, an infinity, or what is not a number.  Underscores may stand between
digits.
-/

namespace MetricRegistry.Toml

/-! ## Digits -/

/-- Digits after the first, each perhaps after an underscore. -/
def moreDigits (isDigit : Char → Bool) : Reader (List Char)
  | [] => some ([], [])
  | '_' :: c :: s => if isDigit c then prepend c (moreDigits isDigit s) else none
  | c :: s =>
    if isDigit c then prepend c (moreDigits isDigit s)
    else if c == '_' then none
    else some ([], c :: s)

/-- One digit or more. -/
def digits (isDigit : Char → Bool) : Reader (List Char)
  | [] => none
  | c :: s => if isDigit c then prepend c (moreDigits isDigit s) else none

/-- The number that digits of a base spell. -/
def natOfDigits (base : Nat) (ds : List Char) : Nat :=
  ds.foldl (fun n c => n * base + (hexDigit? c).getD 0) 0

/-- Reads the digits before a point.  Only zero itself starts with a zero. -/
def wholeDigits : Reader (List Char)
  | '0' :: s => some (['0'], s)
  | s => digits Char.isDigit s

/-! ## Integers -/

/-- An integer of 64 bits. -/
def integerNode? (n : Int) : Option Node :=
  if Int64.minValue.toInt ≤ n && n ≤ Int64.maxValue.toInt then some (.integer n) else none

/-- Reads an integer after the mark of its base. -/
def basedInteger (base : Nat) : Reader Node := fun s => do
  let isDigit (c : Char) : Bool := (hexDigit? c).any (· < base)
  let (ds, s) ← digits isDigit s
  return (← integerNode? (natOfDigits base ds), s)

/-- Reads a decimal integer without its sign. -/
def decimalInteger (negative : Bool) : Reader Node := fun s => do
  let (ds, s) ← wholeDigits s
  let n : Int := natOfDigits 10 ds
  return (← integerNode? (if negative then -n else n), s)

/-- Reads an integer. -/
def integer : Reader Node
  | '0' :: 'x' :: s => basedInteger 16 s
  | '0' :: 'o' :: s => basedInteger 8 s
  | '0' :: 'b' :: s => basedInteger 2 s
  | '+' :: s => decimalInteger false s
  | '-' :: s => decimalInteger true s
  | s => decimalInteger false s

/-! ## Real numbers -/

/-- Half a step above the greatest double: a number rounds to an infinity from here on. -/
def doubleBound : Nat :=
  ((1 <<< 54) - 1) <<< 970

/-- Whether digits, scaled by a power of ten, are beyond all doubles.  Their number alone decides,
unless it is that of the bound, 309. -/
def exceedsDouble (digits : List Char) (exponent : Int) : Bool :=
  let significant := digits.dropWhile (· == '0')
  let n := natOfDigits 10 significant
  let length : Int := significant.length + exponent
  if significant.isEmpty || length < 309 then false
  else if 309 < length then true
  else if 0 ≤ exponent then doubleBound ≤ n * Nat.pow 10 exponent.toNat
  else doubleBound * Nat.pow 10 (-exponent).toNat ≤ n

/-- Whether a number is negative, and what follows its sign. -/
def sign : List Char → Bool × List Char
  | '+' :: s => (false, s)
  | '-' :: s => (true, s)
  | s => (false, s)

/-- Reads the digits after a point, if a point comes next. -/
def fraction : Reader (Option (List Char))
  | '.' :: s => (digits Char.isDigit s).map fun (ds, s) => (some ds, s)
  | s => some (none, s)

/-- Reads an exponent after its mark. -/
def exponentValue (s : List Char) : Option (Option Int × List Char) := do
  let (negative, s) := sign s
  let (ds, s) ← digits Char.isDigit s
  let n : Int := natOfDigits 10 ds
  return (some (if negative then -n else n), s)

/-- Reads an exponent, if one comes next. -/
def exponent : Reader (Option Int)
  | 'e' :: s => exponentValue s
  | 'E' :: s => exponentValue s
  | s => some (none, s)

/-- Passes over a number with a fraction or an exponent, which may not be too great.  One that is
negative is never too great. -/
def passDecimal (negative : Bool) (s : List Char) : Option (List Char) := do
  let (whole, s) ← wholeDigits s
  let (part, s) ← fraction s
  let (power, s) ← exponent s
  let after := part.getD []
  if part.isNone && power.isNone then none
  else if !negative && exceedsDouble (whole ++ after) (power.getD 0 - after.length) then none
  else some s

/-- Passes over a real number without its sign. -/
def passReal (negative : Bool) : List Char → Option (List Char)
  | 'i' :: 'n' :: 'f' :: s => some s
  | 'n' :: 'a' :: 'n' :: s => some s
  | s => passDecimal negative s

/-- What was read between two places. -/
def written (start rest : List Char) : String :=
  String.ofList (start.take (start.length - rest.length))

/-- Reads a real number. -/
def real : Reader Node := fun s => do
  let (negative, unsigned) := sign s
  let rest ← passReal negative unsigned
  return (.real (written s rest), rest)

end MetricRegistry.Toml
