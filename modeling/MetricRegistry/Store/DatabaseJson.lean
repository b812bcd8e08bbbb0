import MetricRegistry.Json.Parser
import MetricRegistry.Json.Printer
import MetricRegistry.Store.Table

/-!
# Databases as files

The text in which a database is kept in a file: an object with a member for each table, an array of
rows.  The bytes of a document are written as hexadecimal digits, since they may spell no text.
-/

namespace MetricRegistry

open Json

/-- Bytes as hexadecimal digits. -/
def hexOf (bytes : List UInt8) : String :=
  String.ofList
    (bytes.flatMap fun b => [Nat.digitChar (b.toNat / 16), Nat.digitChar (b.toNat % 16)])

/-- The bytes that hexadecimal digits spell. -/
def ofHex? : List Char → Option (List UInt8)
  | [] => some []
  | a :: b :: cs => do
    let high ← Ascii.hexDigit? a.toNat.toUInt8
    let low ← Ascii.hexDigit? b.toNat.toUInt8
    return (high * 16 + low).toUInt8 :: (← ofHex? cs)
  | _ => none

/-- A row as a value. -/
def Row.toValue (r : Row) : Value :=
  .array [.string r.key, .int r.version, .string (hexOf r.document)]

/-- The row that a value stands for. -/
def Row.ofValue? : Value → Option Row
  | .array [.string key, .number (.integer version), .string digits] => do
    return ⟨key, version, ← ofHex? digits.toList⟩
  | _ => none

/-- The text of a database. -/
def Database.toJson (db : Database) : List UInt8 :=
  (Value.object (db.map fun t => (t.1, .array (t.2.map Row.toValue)))).compact

/-- The database that a text stands for; an empty text stands for one without tables. -/
def Database.ofJson? (bytes : List UInt8) : Option Database :=
  if bytes.isEmpty then some []
  else
    match Json.parse bytes with
    | .ok (.object ms) => ms.mapM fun m => do return (m.1, ← (← m.2.items?).mapM Row.ofValue?)
    | _ => none

end MetricRegistry
