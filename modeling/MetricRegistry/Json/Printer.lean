import MetricRegistry.Json.Reader

/-!
# Writing values

`Value.compact` writes a value without blanks, `Value.pretty` with one item or member a line and
two blanks of indentation a level; both write an empty container closed at once.
-/

namespace MetricRegistry.Json

open Ascii

/-- The digits of a natural number. -/
def natBytes (n : Nat) : List UInt8 :=
  (Nat.toDigits 10 n).map fun c => c.toNat.toUInt8

/-- An integer in decimal. -/
def intBytes (n : Int) : List UInt8 :=
  if n < 0 then minus :: natBytes n.natAbs else natBytes n.natAbs

/-- A number in decimal; a real has its significand and its exponent. -/
def Number.compact : Number → List UInt8
  | .integer n => intBytes n
  | .real negative significand exponent =>
    (if negative then [minus] else []) ++ natBytes significand ++ [lowerE] ++ intBytes exponent

/-- Texts with a byte between each and the next. -/
def separated (sep : List UInt8) : List (List UInt8) → List UInt8
  | [] => []
  | [t] => t
  | t :: ts => t ++ sep ++ separated sep ts

/-- The words `null`, `true` and `false`. -/
def nullBytes : List UInt8 := [lowerN, lowerU, 0x6C, 0x6C]

/-- The word of a truth value. -/
def boolBytes (b : Bool) : List UInt8 :=
  if b then [lowerT, lowerR, lowerU, lowerE] else [lowerF, 0x61, 0x6C, 0x73, lowerE]

mutual

/-- A value without blanks. -/
def Value.compact : Value → List UInt8
  | .null => nullBytes
  | .bool b => boolBytes b
  | .number n => n.compact
  | .string s => quoted s
  | .array items => openBracket :: separated [comma] (compactItems items) ++ [closeBracket]
  | .object members => openBrace :: separated [comma] (compactMembers members) ++ [closeBrace]

/-- The items of an array, each without blanks. -/
def compactItems : List Value → List (List UInt8)
  | [] => []
  | v :: vs => v.compact :: compactItems vs

/-- The members of an object, each without blanks. -/
def compactMembers : List (String × Value) → List (List UInt8)
  | [] => []
  | (name, v) :: ms => (quoted name ++ colon :: v.compact) :: compactMembers ms

end

/-- A new line at a level of indentation. -/
def indent (level : Nat) : List UInt8 :=
  lineFeed :: List.replicate (2 * level) space

/-- The parts of a container, each on a line of its own. -/
def block (opening closing : UInt8) (level : Nat) (parts : List (List UInt8)) : List UInt8 :=
  if parts.isEmpty then [opening, closing]
  else
    opening :: indent (level + 1) ++ separated (comma :: indent (level + 1)) parts
      ++ indent level ++ [closing]

mutual

/-- A value over several lines, starting at a level of indentation. -/
def Value.pretty (level : Nat) : Value → List UInt8
  | .null => nullBytes
  | .bool b => boolBytes b
  | .number n => n.compact
  | .string s => quoted s
  | .array items => block openBracket closeBracket level (prettyItems (level + 1) items)
  | .object members => block openBrace closeBrace level (prettyMembers (level + 1) members)

/-- The items of an array, each over several lines. -/
def prettyItems (level : Nat) : List Value → List (List UInt8)
  | [] => []
  | v :: vs => v.pretty level :: prettyItems level vs

/-- The members of an object, each over several lines. -/
def prettyMembers (level : Nat) : List (String × Value) → List (List UInt8)
  | [] => []
  | (name, v) :: ms => (quoted name ++ [colon, space] ++ v.pretty level) :: prettyMembers level ms

end

end MetricRegistry.Json
