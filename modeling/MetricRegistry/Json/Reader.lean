import MetricRegistry.Json.Numeral
import MetricRegistry.Json.Quoted

/-!
# Reading arrays and objects

The loops that every reader of JSON shares.  `elements` reads an array with a reader of its items,
`members` an object with a reader of its names and a choice of reader for each name.  Both stop at
the first fault.  Their first argument bounds the number of rounds; every round takes at least one
byte, so the length of the text is bound enough.
-/

namespace MetricRegistry.Json

open Ascii

/-- The blanks that may stand between the tokens of a JSON text. -/
def isSpace (b : UInt8) : Bool :=
  b == space || b == lineFeed || b == tab || b == carriageReturn

/-- A text without the blanks at its front. -/
def skipSpace (s : List UInt8) : List UInt8 :=
  s.dropWhile isSpace

/-- Passes over the letters of a word. -/
def word : List UInt8 → List UInt8 → Except Fault (List UInt8)
  | [], s => .ok s
  | _ :: _, [] => .error .truncated
  | w :: ws, b :: s => if b == w then word ws s else .error .malformed

/-- Where the next item of an array starts, if the array does not end here. -/
def nextElement (first : Bool) (s : List UInt8) : Except Fault (Option (List UInt8)) :=
  match skipSpace s with
  | [] => .error .truncated
  | b :: s =>
    if b == closeBracket then .ok none
    else if first then .ok (some (b :: s))
    else if b == comma then
      match skipSpace s with
      | [] => .error .truncated
      | c :: s => if c == closeBracket then .error .malformed else .ok (some (c :: s))
    else .error .malformed

/-- Passes over the bracket that ends an array. -/
def closeArray (s : List UInt8) : Except Fault (List UInt8) :=
  match skipSpace s with
  | [] => .error .truncated
  | b :: s => if b == closeBracket then .ok s else .error .malformed

/-- Reads the items of an array after its opening bracket, up to and with the closing one. -/
def elements {α : Type} (item : Reader α) : Nat → Bool → Reader (List α)
  | 0, _, _ => .error .malformed
  | rounds + 1, first, s => do
    match ← nextElement first s with
    | none => return ([], ← closeArray s)
    | some s =>
      let (x, s) ← item s
      let (xs, s) ← elements item rounds false s
      return (x :: xs, s)

/-- What follows the quote that opens the next name of an object, if the object does not end
here. -/
def nextName (first : Bool) (s : List UInt8) : Except Fault (Option (List UInt8)) :=
  match skipSpace s with
  | [] => .error .truncated
  | b :: s =>
    if b == closeBrace then .ok none
    else if first then (if b == quote then .ok (some s) else .error .malformed)
    else if b == comma then
      match skipSpace s with
      | [] => .error .truncated
      | c :: s => if c == quote then .ok (some s) else .error .malformed
    else .error .malformed

/-- Passes over the colon between a name and its value. -/
def nameEnd (s : List UInt8) : Except Fault (List UInt8) :=
  match skipSpace s with
  | [] => .error .truncated
  | b :: s => if b == colon then .ok s else .error .malformed

/-- Passes over the brace that ends an object. -/
def closeObject (s : List UInt8) : Except Fault (List UInt8) :=
  match skipSpace s with
  | [] => .error .truncated
  | b :: s => if b == closeBrace then .ok s else .error .malformed

/-- Reads the members of an object after its opening brace, up to and with the closing one.  `name`
reads the rest of a name; `member` chooses, from what was read so far and the name, how to read the
value, or refuses the name. -/
def members {σ ν : Type} (name : Reader ν) (member : σ → ν → Except Fault (Reader σ)) :
    Nat → Bool → σ → Reader σ
  | 0, _, _, _ => .error .malformed
  | rounds + 1, first, state, s => do
    match ← nextName first s with
    | none => return (state, ← closeObject s)
    | some s =>
      let (n, s) ← name s
      let value ← member state n
      let s ← nameEnd s
      let (state, s) ← value s
      members name member rounds false state s

/-- The fault of a value of another kind than was asked for: a scalar is read to its end, so that a
fault inside it comes first. -/
def otherKind (s : List UInt8) : Fault :=
  let fault {α : Type} : Except Fault α → Fault
    | .ok _ => .mismatched
    | .error f => f
  match s with
  | [] => .truncated
  | b :: rest =>
    if b == lowerN then fault (word [lowerU, 0x6C, 0x6C] rest)
    else if b == lowerT then fault (word [lowerR, lowerU, lowerE] rest)
    else if b == lowerF then fault (word [0x61, 0x6C, 0x73, lowerE] rest)
    else if b == minus || isDigit b then fault (number s)
    else if b == quote then fault (string rest)
    else if b == openBracket || b == openBrace then .mismatched
    else .malformed

/-- Reads a string. -/
def text : Reader String := fun s =>
  match skipSpace s with
  | [] => .error .truncated
  | b :: s => if b == quote then string s else .error (otherKind (b :: s))

/-- Reads an array with a reader of its items. -/
def list {α : Type} (item : Reader α) : Reader (List α) := fun s =>
  match skipSpace s with
  | [] => .error .truncated
  | b :: s =>
    if b == openBracket then elements item (s.length + 1) true s
    else .error (otherKind (b :: s))

/-- Reads a natural number of 32 bits. -/
def uint32 : Reader UInt32 := fun s =>
  match skipSpace s with
  | [] => .error .truncated
  | b :: s =>
    if b == minus || isDigit b then do
      let (n, s) ← number (b :: s)
      match n with
      | .integer v =>
        if 0 ≤ v && v.toNat < UInt32.size then return (v.toNat.toUInt32, s) else throw .mismatched
      | .real .. => throw .mismatched
    else .error (otherKind (b :: s))

/-- Reads a text that is one value and nothing but blanks after it. -/
def whole {α : Type} (read : Reader α) (bytes : List UInt8) : Except Fault α := do
  let (x, s) ← read bytes
  match skipSpace s with
  | [] => return x
  | _ => throw .malformed

end MetricRegistry.Json
