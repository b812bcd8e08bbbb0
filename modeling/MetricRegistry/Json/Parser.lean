import MetricRegistry.Json.Reader

/-!
# Reading whole values

`skipValue` passes over a value that nobody asked for: any nesting, strings undecoded, numbers of
any size.  `value` reads one into a `Value`; it keeps nesting within a bound, and `parse` reads a
text whose outermost container is the first of the `maxDepth` that the bound allows.
-/

namespace MetricRegistry.Json

open Ascii

/-- The deepest nesting of containers that `parse` accepts. -/
def maxDepth : Nat := 127

/-- Passes over a value, given what to do after an opening bracket or brace. -/
def skipWith (array object : Reader Unit) : Reader Unit := fun s =>
  match skipSpace s with
  | [] => .error .truncated
  | b :: rest =>
    if b == lowerN then return ((), ← word [lowerU, 0x6C, 0x6C] rest)
    else if b == lowerT then return ((), ← word [lowerR, lowerU, lowerE] rest)
    else if b == lowerF then return ((), ← word [0x61, 0x6C, 0x73, lowerE] rest)
    else if b == minus || isDigit b then return ((), ← skipNumber (b :: rest))
    else if b == quote then return ((), ← skipString rest)
    else if b == openBracket then array rest
    else if b == openBrace then object rest
    else .error .malformed

/-- Passes over a value of a bounded nesting. -/
def skipNested : Nat → Reader Unit
  | 0 => fun _ => .error .malformed
  | depth + 1 =>
    skipWith
      (fun s => do
        let (_, s) ← elements (skipNested depth) (s.length + 1) true s
        return ((), s))
      (fun s =>
        members (fun s => return ((), ← skipString s)) (fun _ _ => .ok (skipNested depth))
          (s.length + 1) true () s)

/-- Passes over a value.  Every level of nesting takes a byte, so the bound is out of reach. -/
def skipValue : Reader Unit := fun s =>
  skipNested (s.length + 1) s

/-- Reads a value, given how to read on after an opening bracket or brace. -/
def valueWith (array object : Reader Value) : Reader Value := fun s =>
  match skipSpace s with
  | [] => .error .truncated
  | b :: rest =>
    if b == lowerN then return (.null, ← word [lowerU, 0x6C, 0x6C] rest)
    else if b == lowerT then return (.bool true, ← word [lowerR, lowerU, lowerE] rest)
    else if b == lowerF then return (.bool false, ← word [0x61, 0x6C, 0x73, lowerE] rest)
    else if b == minus || isDigit b then do
      let (n, s) ← number (b :: rest)
      return (.number n, s)
    else if b == quote then do
      let (t, s) ← string rest
      return (.string t, s)
    else if b == openBracket then array rest
    else if b == openBrace then object rest
    else .error .malformed

/-- Adds a member to the members read so far, the latest first. -/
def addMember (value : Reader Value) (read : List (String × Value)) (name : String) :
    Except Fault (Reader (List (String × Value))) :=
  .ok fun s => do
    let (v, s) ← value s
    return ((name, v) :: read, s)

/-- Reads a value that nests at most `depth` containers. -/
def value : Nat → Reader Value
  | 0 => valueWith (fun _ => .error .malformed) (fun _ => .error .malformed)
  | depth + 1 =>
    valueWith
      (fun s => do
        let (items, s) ← elements (value depth) (s.length + 1) true s
        return (.array items, s))
      (fun s => do
        let (read, s) ← members string (addMember (value depth)) (s.length + 1) true [] s
        return (.object read.reverse, s))

/-- Reads a text that is one value. -/
def parse (bytes : List UInt8) : Except Fault Value :=
  whole (value maxDepth) bytes

end MetricRegistry.Json
