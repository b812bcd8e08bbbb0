import MetricRegistry.Text.Unprintable
import MetricRegistry.Text.GraphemeExtend

/-!
# Escaped text

How a message shows a text that may hold control characters.  `escaped` writes the four named
controls, both quotes and the backslash with a backslash, every other character that is not
printable by its code point, and a combining character by its code point only where it opens the
text.
-/

namespace MetricRegistry.Text

/-- A code point in braces, in the fewest lower-case hexadecimal digits. -/
def codePointEscape (c : Char) : List Char :=
  ['\\', 'u', '\x7b'] ++ Nat.toDigits 16 c.toNat ++ ['\x7d']

/-- The characters that have an escape of their own. -/
def namedEscape? : Char → Option Char
  | '\x00' => some '0'
  | '\t' => some 't'
  | '\n' => some 'n'
  | '\r' => some 'r'
  | '\'' => some '\''
  | '"' => some '"'
  | '\\' => some '\\'
  | _ => none

/-- One character of an escaped text; `opening` tells whether it is the first. -/
def escapedChar (opening : Bool) (c : Char) : List Char :=
  match namedEscape? c with
  | some e => ['\\', e]
  | none =>
    if opening && extendsGrapheme c then codePointEscape c
    else if isPrintable c then [c]
    else codePointEscape c

/-- The characters of an escaped text. -/
def escapedChars : List Char → List Char
  | [] => []
  | c :: cs => escapedChar true c ++ cs.flatMap (escapedChar false)

/-- A text as a message shows it. -/
def escaped (s : String) : String :=
  String.ofList (escapedChars s.toList)

end MetricRegistry.Text
