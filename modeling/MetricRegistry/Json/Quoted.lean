import MetricRegistry.Json.Fault
import MetricRegistry.Text.Ascii
import MetricRegistry.Text.Utf8

/-!
# Strings in JSON

`quoted` writes a text between quotes, escaping the quote, the backslash and the controls below
the space and nothing else.  `string` reads the rest of a string after its opening quote, and
`skipString` passes over it without asking what text it spells: it accepts lone surrogates and
bytes that are not UTF-8.
-/

namespace MetricRegistry.Json

open Ascii

/-- A digit of a control's escape. -/
def lowerHexDigit (n : Nat) : UInt8 :=
  if n < 10 then 0x30 + n.toUInt8 else 0x61 + (n - 10).toUInt8

/-- The bytes that write one character of a string. -/
def quotedChar (c : Char) : List UInt8 :=
  match c with
  | '"' => [backslash, quote]
  | '\\' => [backslash, backslash]
  | '\x08' => [backslash, lowerB]
  | '\x0c' => [backslash, lowerF]
  | '\n' => [backslash, lowerN]
  | '\r' => [backslash, lowerR]
  | '\t' => [backslash, lowerT]
  | c =>
    if c.toNat < 0x20 then
      [backslash, lowerU, zero, zero, lowerHexDigit (c.toNat / 16), lowerHexDigit (c.toNat % 16)]
    else String.utf8EncodeChar c

/-- A text as a JSON string. -/
def quoted (s : String) : List UInt8 :=
  quote :: s.toList.flatMap quotedChar ++ [quote]

/-- The byte that a backslash and one more byte stand for. -/
def shortEscape? (b : UInt8) : Option UInt8 :=
  if b == quote then some quote
  else if b == backslash then some backslash
  else if b == slash then some slash
  else if b == lowerB then some 0x08
  else if b == lowerF then some formFeed
  else if b == lowerN then some lineFeed
  else if b == lowerR then some carriageReturn
  else if b == lowerT then some tab
  else none

/-- The code unit that four hexadecimal digits spell. -/
def hex4? (a b c d : UInt8) : Option Nat := do
  return (((← hexDigit? a) * 16 + (← hexDigit? b)) * 16 + (← hexDigit? c)) * 16 + (← hexDigit? d)

/-- The first half of a surrogate pair. -/
def isHighSurrogate (unit : Nat) : Bool :=
  0xD800 ≤ unit && unit ≤ 0xDBFF

/-- The second half of a surrogate pair. -/
def isLowSurrogate (unit : Nat) : Bool :=
  0xDC00 ≤ unit && unit ≤ 0xDFFF

/-- The code point that a surrogate pair stands for. -/
def pairCode (high low : Nat) : Nat :=
  (high - 0xD800) * 0x400 + (low - 0xDC00) + 0x10000

/-- The bytes of the character with a code point. -/
def codeBytes (code : Nat) : List UInt8 :=
  String.utf8EncodeChar (Char.ofNat code)

/-- Puts bytes in front of what a reader of bytes gives. -/
def prependBytes (bytes : List UInt8) (r : Except Fault (List UInt8 × List UInt8)) :
    Except Fault (List UInt8 × List UInt8) :=
  r.map fun (more, rest) => (bytes ++ more, rest)

/-- The bytes that the rest of a string spells, up to its closing quote. -/
def stringBytes : Reader (List UInt8)
  | [] => .error .truncated
  | quote :: s => .ok ([], s)
  | [backslash] => .error .truncated
  | backslash :: lowerU :: a :: b :: c :: d :: s =>
    match hex4? a b c d with
    | none => .error .malformed
    | some unit =>
      if isLowSurrogate unit then .error .malformed
      else if isHighSurrogate unit then
        match s with
        | backslash :: lowerU :: a :: b :: c :: d :: s =>
          match hex4? a b c d with
          | none => .error .malformed
          | some low =>
            if isLowSurrogate low then prependBytes (codeBytes (pairCode unit low)) (stringBytes s)
            else .error .malformed
        | backslash :: lowerU :: _ => .error .truncated
        | [backslash] => .error .truncated
        | [] => .error .truncated
        | _ => .error .malformed
      else prependBytes (codeBytes unit) (stringBytes s)
  | backslash :: lowerU :: _ => .error .truncated
  | backslash :: e :: s =>
    match shortEscape? e with
    | some b => prependBytes [b] (stringBytes s)
    | none => .error .malformed
  | b :: s => if b < space then .error .malformed else prependBytes [b] (stringBytes s)

/-- Reads the rest of a string after its opening quote. -/
def string : Reader String := fun s => do
  let (bytes, s) ← stringBytes s
  match Text.ofUtf8? bytes with
  | some text => return (text, s)
  | none => throw .malformed

/-- Passes over the rest of a string after its opening quote. -/
def skipString : List UInt8 → Except Fault (List UInt8)
  | [] => .error .truncated
  | quote :: s => .ok s
  | [backslash] => .error .truncated
  | backslash :: lowerU :: a :: b :: c :: d :: s =>
    if (hex4? a b c d).isSome then skipString s else .error .malformed
  | backslash :: lowerU :: _ => .error .truncated
  | backslash :: e :: s => if (shortEscape? e).isSome then skipString s else .error .malformed
  | b :: s => if b < space then .error .malformed else skipString s

end MetricRegistry.Json
