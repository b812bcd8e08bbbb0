import MetricRegistry.Catalog.Document
import MetricRegistry.Json.Tagged
import MetricRegistry.Request.Basic

/-!
# Requests as JSON

A request is written as an object whose member `op` tells what is asked for.  `ofJson` reads the
text of one.  Unknown members are passed over, a known one may not come twice, and all of them may
be missing.  The three requests that have no field but the organization may be arrays too.
-/

namespace MetricRegistry

open Catalog Json

/-- The operations that a request may ask for. -/
inductive Operation where
  | createOrg
  | updateTenant
  | createMetric
  | updateMetric
  | deleteMetric
  | createField
  | updateField
  | deleteField
  | getMetrics
  | getMetric
  | getTenant
  deriving DecidableEq, Repr

namespace Operation

/-- The operation with a written name. -/
def ofWire? (name : String) : Option Operation :=
  match name with
  | "create_org" => some .createOrg
  | "update_tenant" => some .updateTenant
  | "create_metric" => some .createMetric
  | "update_metric" => some .updateMetric
  | "delete_metric" => some .deleteMetric
  | "create_field" => some .createField
  | "update_field" => some .updateField
  | "delete_field" => some .deleteField
  | "get_metrics" => some .getMetrics
  | "get_metric" => some .getMetric
  | "get_tenant" => some .getTenant
  | _ => none

/-- The written name of an operation. -/
def wire : Operation → String
  | .createOrg => "create_org"
  | .updateTenant => "update_tenant"
  | .createMetric => "create_metric"
  | .updateMetric => "update_metric"
  | .deleteMetric => "delete_metric"
  | .createField => "create_field"
  | .updateField => "update_field"
  | .deleteField => "delete_field"
  | .getMetrics => "get_metrics"
  | .getMetric => "get_metric"
  | .getTenant => "get_tenant"

end Operation

namespace Request

/-- What a request asks for. -/
def operation : Request → Operation
  | .createOrg _ => .createOrg
  | .updateTenant .. => .updateTenant
  | .createMetric .. => .createMetric
  | .updateMetric .. => .updateMetric
  | .deleteMetric .. => .deleteMetric
  | .createField .. => .createField
  | .updateField .. => .updateField
  | .deleteField .. => .deleteField
  | .getMetrics _ => .getMetrics
  | .getMetric .. => .getMetric
  | .getTenant _ => .getTenant

/-! ## Writing -/

/-- The members that name an organization. -/
def orgMembers (org : Option String) : List (String × Value) :=
  [("org_id", .option .string org)]

/-- The members that name a metric. -/
def metricMembers (org metric : Option String) : List (String × Value) :=
  orgMembers org ++ [("metric_name", .option .string metric)]

/-- The members that name a field. -/
def fieldMembers (org metric field : Option String) : List (String × Value) :=
  metricMembers org metric ++ [("field_name", .option .string field)]

/-- The members that change names. -/
def changeMembers (c : NameChanges) : List (String × Value) :=
  [("new_name", .option .string c.newName), ("add_aliases", .texts c.addAliases),
    ("remove_aliases", .texts c.removeAliases)]

/-- The members of a request, in their order. -/
def toMembers : Request → List (String × Value)
  | .createOrg org => orgMembers org
  | .updateTenant org metricKeys timestampFormats =>
    orgMembers org ++ [("metric_keys", .option .texts metricKeys),
      ("timestamp_formats", .option .texts timestampFormats)]
  | .createMetric org metric aliases =>
    metricMembers org metric ++ [("aliases", .texts aliases)]
  | .updateMetric org metric changes => metricMembers org metric ++ changeMembers changes
  | .deleteMetric org metric => metricMembers org metric
  | .createField org metric field type aliases =>
    fieldMembers org metric field
      ++ [("field_type", .option (fun t => .string t.wire) type), ("aliases", .texts aliases)]
  | .updateField org metric field changes =>
    fieldMembers org metric field ++ changeMembers changes
  | .deleteField org metric field => fieldMembers org metric field
  | .getMetrics org => orgMembers org
  | .getMetric org metric => metricMembers org metric
  | .getTenant org => orgMembers org

/-- A request as a value. -/
def toValue (r : Request) : Value :=
  .object (("op", .string r.operation.wire) :: r.toMembers)

/-- The text of a request. -/
def toJson (r : Request) : List UInt8 :=
  r.toValue.compact

/-! ## Reading -/

/-- A field that may be absent or `null`. -/
def optionalField {α : Type} (read : Value → Option α) (field : Option Value) :
    Option (Option α) :=
  match field with
  | none => some none
  | some v => v.optional? read

/-- A list that may be absent. -/
def listField (field : Option Value) : Option (List String) :=
  match field with
  | none => some []
  | some v => v.texts?

/-- The changes of names in a request. -/
def changesOf (f : String → Option Value) : Option NameChanges := do
  return ⟨← optionalField Value.text? (f "new_name"), ← listField (f "add_aliases"),
    ← listField (f "remove_aliases")⟩

/-- The request for an operation with the fields that stand beside it. -/
def ofContent? (content : Content) : Operation → Option Request
  | .createOrg => do
    let f ← content.fields? ["org_id"]
    return .createOrg (← optionalField Value.text? (f "org_id"))
  | .updateTenant => do
    let f ← content.namedFields? ["org_id", "metric_keys", "timestamp_formats"]
    return .updateTenant (← optionalField Value.text? (f "org_id"))
      (← optionalField Value.texts? (f "metric_keys"))
      (← optionalField Value.texts? (f "timestamp_formats"))
  | .createMetric => do
    let f ← content.namedFields? ["org_id", "metric_name", "aliases"]
    return .createMetric (← optionalField Value.text? (f "org_id"))
      (← optionalField Value.text? (f "metric_name")) (← listField (f "aliases"))
  | .updateMetric => do
    let f ← content.namedFields?
      ["org_id", "metric_name", "new_name", "add_aliases", "remove_aliases"]
    return .updateMetric (← optionalField Value.text? (f "org_id"))
      (← optionalField Value.text? (f "metric_name")) (← changesOf f)
  | .deleteMetric => do
    let f ← content.namedFields? ["org_id", "metric_name"]
    return .deleteMetric (← optionalField Value.text? (f "org_id"))
      (← optionalField Value.text? (f "metric_name"))
  | .createField => do
    let f ← content.namedFields? ["org_id", "metric_name", "field_name", "field_type", "aliases"]
    return .createField (← optionalField Value.text? (f "org_id"))
      (← optionalField Value.text? (f "metric_name"))
      (← optionalField Value.text? (f "field_name"))
      (← optionalField FieldType.ofValue? (f "field_type")) (← listField (f "aliases"))
  | .updateField => do
    let f ← content.namedFields?
      ["org_id", "metric_name", "field_name", "new_name", "add_aliases", "remove_aliases"]
    return .updateField (← optionalField Value.text? (f "org_id"))
      (← optionalField Value.text? (f "metric_name"))
      (← optionalField Value.text? (f "field_name")) (← changesOf f)
  | .deleteField => do
    let f ← content.namedFields? ["org_id", "metric_name", "field_name"]
    return .deleteField (← optionalField Value.text? (f "org_id"))
      (← optionalField Value.text? (f "metric_name"))
      (← optionalField Value.text? (f "field_name"))
  | .getMetrics => do
    let f ← content.fields? ["org_id"]
    return .getMetrics (← optionalField Value.text? (f "org_id"))
  | .getMetric => do
    let f ← content.namedFields? ["org_id", "metric_name"]
    return .getMetric (← optionalField Value.text? (f "org_id"))
      (← optionalField Value.text? (f "metric_name"))
  | .getTenant => do
    let f ← content.fields? ["org_id"]
    return .getTenant (← optionalField Value.text? (f "org_id"))

/-- Reads a request. -/
def read : Reader Request := fun s => do
  let (t, s) ← tagged "op" Operation.ofWire? s
  match ofContent? t.content t.tag with
  | some r => return (r, s)
  | none => throw .mismatched

/-- The request that a text spells. -/
def ofJson (bytes : List UInt8) : Except Fault Request :=
  whole read bytes

end Request

end MetricRegistry
