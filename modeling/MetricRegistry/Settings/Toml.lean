import MetricRegistry.Settings.Basic
import MetricRegistry.Toml.Document

/-!
# Settings in TOML

Settings are written as a TOML document in which everything is optional and nothing else may stand.
The part about the store is a table, or an array that gives its members in their order.
-/

namespace MetricRegistry

open Toml

/-- A natural number below a bound. -/
def naturalBelow? (bound : Nat) : Node → Option Nat
  | .integer n => if 0 ≤ n && n < bound then some n.toNat else none
  | _ => none

/-- A text. -/
def nodeText? : Node → Option String
  | .text t => some t
  | _ => none

namespace Backend

/-- The kind of store with a name. -/
def ofName? (name : String) : Option Backend :=
  match name with
  | "memory" => some .memory
  | "sqlite" => some .sqlite
  | _ => none

/-- The name of a kind of store. -/
def name : Backend → String
  | .memory => "memory"
  | .sqlite => "sqlite"

/-- The kind of store that a node names: by its name, or by a table with an empty member of that
name. -/
def ofNode? : Node → Option Backend
  | .text name => ofName? name
  | .table _ [(name, .table _ [])] => ofName? name
  | .table _ [(name, .array [])] => ofName? name
  | _ => none

end Backend

namespace StoreSettings

/-- Sets a member by name. -/
def set (name : String) (node : Node) (s : StoreSettings) : Option StoreSettings :=
  match name with
  | "backend" => do return { s with backend := ← Backend.ofNode? node }
  | "path" => do return { s with path := some (← nodeText? node) }
  | "table" => do return { s with table := ← nodeText? node }
  | "busy_timeout_ms" => do return { s with busyMillis := ← naturalBelow? UInt64.size node }
  | _ => none

/-- The members in their order. -/
def names : List String := ["backend", "path", "table", "busy_timeout_ms"]

/-- The part about the store. -/
def ofNode? : Node → Option StoreSettings
  | .table _ members => members.foldlM (fun s m => s.set m.1 m.2) {}
  | .array items => (names.zip items).foldlM (fun s m => s.set m.1 m.2) {}
  | .tables items => (names.zip items).foldlM (fun s m => s.set m.1 m.2) {}
  | _ => none

end StoreSettings

namespace Settings

/-- Sets a member by name. -/
def set (name : String) (node : Node) (s : Settings) : Option Settings :=
  match name with
  | "retries" => do return { s with retries := ← naturalBelow? UInt32.size node }
  | "retry_backoff_ms" => do return { s with backoffMillis := ← naturalBelow? UInt64.size node }
  | "store" => do return { s with store := ← StoreSettings.ofNode? node }
  | _ => none

/-- The settings that a text spells, whether they can work or not. -/
def ofToml? (text : String) : Option Settings := do
  (← Toml.parse text).foldlM (fun s m => s.set m.1 m.2) {}

/-- The settings that a text spells, if they can work. -/
def parse (text : String) : Except SettingsError Settings :=
  match ofToml? text with
  | none => .error (.malformed "<inline>")
  | some s => do
    s.validate.mapError .invalid
    return s

end Settings

end MetricRegistry
