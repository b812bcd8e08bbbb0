import MetricRegistry.Catalog.Violation
import MetricRegistry.Json.Reader
import MetricRegistry.Json.Value

/-!
# Types of fields

The five types that a field may have.  `ofWire?` knows their written names exactly, `named` without
regard to the case of ASCII letters.  In JSON a type is its name, or an object whose one
member has that name and no content; `read` accepts it in a text and `ofValue?` in a value.
-/

namespace MetricRegistry.Catalog

open Ascii Json

/-- The type of a field's values. -/
inductive FieldType where
  | string
  | long
  | double
  | boolean
  | timestamp
  deriving DecidableEq, Repr

namespace FieldType

/-- The written name of a type. -/
def wire : FieldType → String
  | .string => "STRING"
  | .long => "LONG"
  | .double => "DOUBLE"
  | .boolean => "BOOLEAN"
  | .timestamp => "TIMESTAMP"

/-- The type with a written name. -/
def ofWire? (name : String) : Option FieldType :=
  match name with
  | "STRING" => some .string
  | "LONG" => some .long
  | "DOUBLE" => some .double
  | "BOOLEAN" => some .boolean
  | "TIMESTAMP" => some .timestamp
  | _ => none

/-- A type is found by its written name. -/
@[simp]
theorem ofWire?_wire (t : FieldType) : ofWire? t.wire = some t := by
  cases t <;> rfl

/-- The type with a name, whatever the case of its letters. -/
def named (name : String) : Except Violation FieldType :=
  match ofWire? name.toUpper with
  | some t => .ok t
  | none => .error (.unknownFieldType name.toUpper)

/-- The type with a written name, as a reader wants it. -/
def ofName (name : String) : Except Fault FieldType :=
  match ofWire? name with
  | some t => .ok t
  | none => .error .mismatched

/-- Passes over the null and the brace that end the long form of a type. -/
def readNoContent (s : List UInt8) : Except Fault (List UInt8) :=
  match skipSpace s with
  | [] => .error .truncated
  | b :: s =>
    if b == lowerN then do
      let s ← word [lowerU, 0x6C, 0x6C] s
      closeObject s
    else .error (otherKind (b :: s))

/-- Reads a type. What stands first in the long form has to be a name: anything else there is
malformed, also a value of another kind, which elsewhere would be mismatched. -/
def read : Reader FieldType := fun s =>
  match skipSpace s with
  | [] => .error .truncated
  | b :: rest =>
    if b == quote then do
      let (name, s) ← Json.string rest
      return (← ofName name, s)
    else if b == openBrace then do
      match ← nextName true rest with
      | none => throw .malformed
      | some s =>
        let (name, s) ← Json.string s
        let t ← ofName name
        let s ← readNoContent (← nameEnd s)
        return (t, s)
    else .error .malformed

/-- The type that a value stands for. -/
def ofValue? : Value → Option FieldType
  | .string name => ofWire? name
  | .object [(name, .null)] => ofWire? name
  | .object [(name, .object [])] => ofWire? name
  | _ => none

end FieldType

end MetricRegistry.Catalog
