import MetricRegistry.Catalog.Mutation
import MetricRegistry.Json.Printer
import MetricRegistry.Json.Tagged

/-!
# Changes as JSON

A mutation is written as an object whose member `kind` tells which change it is.  `ofJson` reads
the text of one: it needs every field of that kind, in an object or, after the kind, in an array.
-/

namespace MetricRegistry.Catalog

open Json

/-- The kinds of change. -/
inductive MutationKind where
  | setMetricKeys
  | setTimestampFormats
  | createMetric
  | renameMetric
  | addMetricAlias
  | removeMetricAlias
  | deleteMetric
  | createField
  | renameField
  | addFieldAlias
  | removeFieldAlias
  | deleteField
  deriving DecidableEq, Repr

namespace MutationKind

/-- The kind with a written name. -/
def ofWire? (name : String) : Option MutationKind :=
  match name with
  | "set_metric_keys" => some .setMetricKeys
  | "set_timestamp_formats" => some .setTimestampFormats
  | "create_metric" => some .createMetric
  | "rename_metric" => some .renameMetric
  | "add_metric_alias" => some .addMetricAlias
  | "remove_metric_alias" => some .removeMetricAlias
  | "delete_metric" => some .deleteMetric
  | "create_field" => some .createField
  | "rename_field" => some .renameField
  | "add_field_alias" => some .addFieldAlias
  | "remove_field_alias" => some .removeFieldAlias
  | "delete_field" => some .deleteField
  | _ => none

/-- The written name of a kind. -/
def wire : MutationKind → String
  | .setMetricKeys => "set_metric_keys"
  | .setTimestampFormats => "set_timestamp_formats"
  | .createMetric => "create_metric"
  | .renameMetric => "rename_metric"
  | .addMetricAlias => "add_metric_alias"
  | .removeMetricAlias => "remove_metric_alias"
  | .deleteMetric => "delete_metric"
  | .createField => "create_field"
  | .renameField => "rename_field"
  | .addFieldAlias => "add_field_alias"
  | .removeFieldAlias => "remove_field_alias"
  | .deleteField => "delete_field"

end MutationKind

namespace Mutation

/-- The kind of a change. -/
def kind : Mutation → MutationKind
  | .setMetricKeys _ => .setMetricKeys
  | .setTimestampFormats _ => .setTimestampFormats
  | .createMetric .. => .createMetric
  | .renameMetric .. => .renameMetric
  | .addMetricAlias .. => .addMetricAlias
  | .removeMetricAlias .. => .removeMetricAlias
  | .deleteMetric _ => .deleteMetric
  | .createField .. => .createField
  | .renameField .. => .renameField
  | .addFieldAlias .. => .addFieldAlias
  | .removeFieldAlias .. => .removeFieldAlias
  | .deleteField .. => .deleteField

/-- The fields of a change, in their order. -/
def toMembers : Mutation → List (String × Value)
  | .setMetricKeys keys => [("keys", .texts keys)]
  | .setTimestampFormats formats => [("patterns", .texts formats)]
  | .createMetric name aliases => [("name", .string name), ("aliases", .texts aliases)]
  | .renameMetric metric newName => [("metric", .string metric), ("new_name", .string newName)]
  | .addMetricAlias metric alternate =>
    [("metric", .string metric), ("alias", .string alternate)]
  | .removeMetricAlias metric alternate =>
    [("metric", .string metric), ("alias", .string alternate)]
  | .deleteMetric metric => [("metric", .string metric)]
  | .createField metric name type aliases =>
    [("metric", .string metric), ("name", .string name), ("field_type", .string type.wire),
      ("aliases", .texts aliases)]
  | .renameField metric field newName =>
    [("metric", .string metric), ("field", .string field), ("new_name", .string newName)]
  | .addFieldAlias metric field alternate =>
    [("metric", .string metric), ("field", .string field), ("alias", .string alternate)]
  | .removeFieldAlias metric field alternate =>
    [("metric", .string metric), ("field", .string field), ("alias", .string alternate)]
  | .deleteField metric field => [("metric", .string metric), ("field", .string field)]

/-- A change as a value. -/
def toValue (m : Mutation) : Value :=
  .object (("kind", .string m.kind.wire) :: m.toMembers)

/-- The text of a change. -/
def toJson (m : Mutation) : List UInt8 :=
  m.toValue.compact

/-- The change of a kind with the fields that stand beside it. -/
def ofContent? (content : Content) : MutationKind → Option Mutation
  | .setMetricKeys => do
    let f ← content.fields? ["keys"]
    return .setMetricKeys (← (← f "keys").texts?)
  | .setTimestampFormats => do
    let f ← content.fields? ["patterns"]
    return .setTimestampFormats (← (← f "patterns").texts?)
  | .createMetric => do
    let f ← content.fields? ["name", "aliases"]
    return .createMetric (← (← f "name").text?) (← (← f "aliases").texts?)
  | .renameMetric => do
    let f ← content.fields? ["metric", "new_name"]
    return .renameMetric (← (← f "metric").text?) (← (← f "new_name").text?)
  | .addMetricAlias => do
    let f ← content.fields? ["metric", "alias"]
    return .addMetricAlias (← (← f "metric").text?) (← (← f "alias").text?)
  | .removeMetricAlias => do
    let f ← content.fields? ["metric", "alias"]
    return .removeMetricAlias (← (← f "metric").text?) (← (← f "alias").text?)
  | .deleteMetric => do
    let f ← content.fields? ["metric"]
    return .deleteMetric (← (← f "metric").text?)
  | .createField => do
    let f ← content.fields? ["metric", "name", "field_type", "aliases"]
    return .createField (← (← f "metric").text?) (← (← f "name").text?)
      (← FieldType.ofValue? (← f "field_type")) (← (← f "aliases").texts?)
  | .renameField => do
    let f ← content.fields? ["metric", "field", "new_name"]
    return .renameField (← (← f "metric").text?) (← (← f "field").text?)
      (← (← f "new_name").text?)
  | .addFieldAlias => do
    let f ← content.fields? ["metric", "field", "alias"]
    return .addFieldAlias (← (← f "metric").text?) (← (← f "field").text?)
      (← (← f "alias").text?)
  | .removeFieldAlias => do
    let f ← content.fields? ["metric", "field", "alias"]
    return .removeFieldAlias (← (← f "metric").text?) (← (← f "field").text?)
      (← (← f "alias").text?)
  | .deleteField => do
    let f ← content.fields? ["metric", "field"]
    return .deleteField (← (← f "metric").text?) (← (← f "field").text?)

/-- Reads a change. -/
def read : Reader Mutation := fun s => do
  let (t, s) ← tagged "kind" MutationKind.ofWire? s
  match ofContent? t.content t.tag with
  | some m => return (m, s)
  | none => throw .mismatched

/-- The change that a text spells. -/
def ofJson (bytes : List UInt8) : Except Fault Mutation :=
  whole read bytes

end Mutation

end MetricRegistry.Catalog
