import MetricRegistry.Catalog.Schema
import MetricRegistry.Json.Printer
import MetricRegistry.Json.Record

/-!
# Catalogs as documents

The stored form of a catalog is a JSON text.  `Schema.encode` writes it without blanks and with the
members in a fixed order, so equal catalogs have equal documents.  `Schema.decode` reads it: the
members may come in any order, unknown ones are passed over, lists may be missing, and the catalog
has to pass `Schema.check`.
-/

namespace MetricRegistry.Catalog

open Json

/-! ## Writing -/

/-- A field as a value. -/
def Field.toValue (f : Field) : Value :=
  .object [("id", .nat f.id.toNat), ("user_field_name", .string f.naming.name),
    ("type", .string f.type.wire), ("aliases", .texts f.naming.aliases)]

/-- A metric as a value. -/
def Metric.toValue (m : Metric) : Value :=
  .object [("id", .nat m.id.toNat), ("user_visible_name", .string m.naming.name),
    ("aliases", .texts m.naming.aliases), ("next_field_id", .nat m.fields.next.toNat),
    ("fields", .array (m.fields.entries.map Field.toValue))]

/-- A catalog as a value. -/
def Schema.toValue (s : Schema) : Value :=
  .object (s.toTenant.toMembers ++
    [("next_metric_id", .nat s.metrics.next.toNat),
      ("metrics", .array (s.metrics.entries.map Metric.toValue))])

/-- The document of a catalog. -/
def Schema.encode (s : Schema) : List UInt8 :=
  s.toValue.compact

/-! ## Reading -/

/-- The members of a field that were read so far. -/
structure FieldDraft where
  id : Option UInt32 := none
  name : Option String := none
  type : Option FieldType := none
  aliases : Option (List String) := none

/-- The members of a field. -/
def FieldDraft.slots : List (Slot FieldDraft) :=
  [.of "id" (·.id) (fun d x => { d with id := some x }) uint32,
    .of "user_field_name" (·.name) (fun d x => { d with name := some x }) text,
    .of "type" (·.type) (fun d x => { d with type := some x }) FieldType.read,
    .of "aliases" (·.aliases) (fun d x => { d with aliases := some x }) (list text)]

/-- The field of a draft that lacks no more than its aliases. -/
def FieldDraft.finish (d : FieldDraft) : Option Field := do
  return ⟨← d.id, ⟨← d.name, d.aliases.getD []⟩, ← d.type⟩

/-- Reads a field. -/
def Field.read : Reader Field :=
  record FieldDraft.slots {} FieldDraft.finish

/-- The members of a metric that were read so far. -/
structure MetricDraft where
  id : Option UInt32 := none
  name : Option String := none
  aliases : Option (List String) := none
  nextFieldId : Option UInt32 := none
  fields : Option (List Field) := none

/-- The members of a metric. -/
def MetricDraft.slots : List (Slot MetricDraft) :=
  [.of "id" (·.id) (fun d x => { d with id := some x }) uint32,
    .of "user_visible_name" (·.name) (fun d x => { d with name := some x }) text,
    .of "aliases" (·.aliases) (fun d x => { d with aliases := some x }) (list text),
    .of "next_field_id" (·.nextFieldId) (fun d x => { d with nextFieldId := some x }) uint32,
    .of "fields" (·.fields) (fun d x => { d with fields := some x }) (list Field.read)]

/-- The metric of a draft that lacks no more than its lists. -/
def MetricDraft.finish (d : MetricDraft) : Option Metric := do
  return ⟨← d.id, ⟨← d.name, d.aliases.getD []⟩, ⟨← d.nextFieldId, d.fields.getD []⟩⟩

/-- Reads a metric. -/
def Metric.read : Reader Metric :=
  record MetricDraft.slots {} MetricDraft.finish

/-- The members of a catalog that were read so far. -/
structure SchemaDraft where
  orgId : Option String := none
  keys : Option (List String) := none
  formats : Option (List String) := none
  nextMetricId : Option UInt32 := none
  metrics : Option (List Metric) := none

/-- The members of a catalog. -/
def SchemaDraft.slots : List (Slot SchemaDraft) :=
  [.of "org_id" (·.orgId) (fun d x => { d with orgId := some x }) text,
    .of "metric_key_aliases" (·.keys) (fun d x => { d with keys := some x }) (list text),
    .of "timestamp_patterns" (·.formats) (fun d x => { d with formats := some x }) (list text),
    .of "next_metric_id" (·.nextMetricId) (fun d x => { d with nextMetricId := some x }) uint32,
    .of "metrics" (·.metrics) (fun d x => { d with metrics := some x }) (list Metric.read)]

/-- The catalog of a draft that lacks no more than its lists. -/
def SchemaDraft.finish (d : SchemaDraft) : Option Schema := do
  return ⟨⟨← d.orgId, d.keys.getD [], d.formats.getD []⟩,
    ⟨← d.nextMetricId, d.metrics.getD []⟩⟩

/-- Reads a catalog. -/
def Schema.read : Reader Schema :=
  record SchemaDraft.slots {} SchemaDraft.finish

/-- The catalog of a document. -/
def Schema.decode (document : List UInt8) : Except RegistryError Schema := do
  let s ← (whole Schema.read document).mapError .serialization
  s.check.mapError fun violation => .corruption (.inconsistent s.orgId violation)
  return s

/-! ## Tenants -/

/-- The members of a tenant that were read so far. -/
structure TenantDraft where
  orgId : Option String := none
  keys : Option (List String) := none
  formats : Option (List String) := none

/-- The members of a tenant. -/
def TenantDraft.slots : List (Slot TenantDraft) :=
  [.of "org_id" (·.orgId) (fun d x => { d with orgId := some x }) text,
    .of "metric_key_aliases" (·.keys) (fun d x => { d with keys := some x }) (list text),
    .of "timestamp_patterns" (·.formats) (fun d x => { d with formats := some x }) (list text)]

/-- The tenant of a draft that lacks nothing. -/
def TenantDraft.finish (d : TenantDraft) : Option Tenant := do
  return ⟨← d.orgId, ← d.keys, ← d.formats⟩

/-- Reads a tenant. -/
def Tenant.read : Reader Tenant :=
  record TenantDraft.slots {} TenantDraft.finish

/-- The tenant that a value stands for.  A value is JSON already, so only its shape can be wrong. -/
def Tenant.ofValue (v : Value) : Except Fault Tenant :=
  (whole Tenant.read v.compact).mapError fun _ => .mismatched

end MetricRegistry.Catalog
