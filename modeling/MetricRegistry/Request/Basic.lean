import MetricRegistry.Catalog.Mutation

/-!
# Requests

A `Request` is what a client asks of the registry.  It may lack what it needs: `Request.plan` finds
that out before any store is touched, and says what is to be done.  An update renames first and
then adds and removes aliases under the new name, so that one request can keep the old name as an
alias.
-/

namespace MetricRegistry

open Catalog

/-- What an update does to the names of a metric or a field. -/
structure NameChanges where
  newName : Option String := none
  addAliases : List String := []
  removeAliases : List String := []
  deriving DecidableEq, Repr

/-- What a client asks of the registry. -/
inductive Request where
  | createOrg (org : Option String)
  | updateTenant (org : Option String) (metricKeys timestampFormats : Option (List String))
  | createMetric (org metric : Option String) (aliases : List String)
  | updateMetric (org metric : Option String) (changes : NameChanges)
  | deleteMetric (org metric : Option String)
  | createField (org metric field : Option String) (type : Option FieldType)
    (aliases : List String)
  | updateField (org metric field : Option String) (changes : NameChanges)
  | deleteField (org metric field : Option String)
  | getMetrics (org : Option String)
  | getMetric (org metric : Option String)
  | getTenant (org : Option String)
  deriving DecidableEq, Repr

/-- The metric or the field that an update is about. -/
inductive Target where
  | metric (metric : String)
  | field (metric field : String)
  deriving DecidableEq, Repr

/-- What is to be done for a request. -/
inductive Plan where
  | createOrg (org : String)
  /-- Changes of a catalog; what they are about, if given, has to be there even if nothing
  changes. -/
  | update (org : String) (mutations : List Mutation) (target : Option Target)
  | getMetrics (org : String)
  | getMetric (org metric : String)
  | getTenant (org : String)
  deriving DecidableEq, Repr

/-- A text that a request must have. -/
def required (name : String) : Option String → Except Rejection String
  | some text => if text.isEmpty then .error (.missingField name) else .ok text
  | none => .error (.missingField name)

namespace NameChanges

/-- The name under which the aliases are changed. -/
def handle (c : NameChanges) (name : String) : String :=
  c.newName.getD name

/-- The aliases to remove.  A name just given is no alias any more and is left out, and the alias
under which the entity is addressed comes last, so that it is there for the others. -/
def removals (c : NameChanges) (handle : String) : List String :=
  let rest := c.removeAliases.filter (some · != c.newName)
  rest.filter (· != handle) ++ rest.filter (· == handle)

/-- The changes of a metric's names. -/
def ofMetric (c : NameChanges) (metric : String) : List Mutation :=
  let handle := c.handle metric
  (c.newName.map (.renameMetric metric)).toList
    ++ c.addAliases.map (.addMetricAlias handle)
    ++ (c.removals handle).map (.removeMetricAlias handle)

/-- The changes of a field's names. -/
def ofField (c : NameChanges) (metric field : String) : List Mutation :=
  let handle := c.handle field
  (c.newName.map (.renameField metric field)).toList
    ++ c.addAliases.map (.addFieldAlias metric handle)
    ++ (c.removals handle).map (.removeFieldAlias metric handle)

end NameChanges

namespace Request

/-- What a request needs, in the order in which it is asked for, and what to do with it. -/
def plan : Request → Except Rejection Plan
  | .createOrg org => do
    return .createOrg (← required "org_id" org)
  | .updateTenant org metricKeys timestampFormats => do
    let mutations := (metricKeys.map Mutation.setMetricKeys).toList
      ++ (timestampFormats.map Mutation.setTimestampFormats).toList
    return .update (← required "org_id" org) mutations none
  | .createMetric org metric aliases => do
    let org ← required "org_id" org
    let metric ← required "metric_name" metric
    return .update org [.createMetric metric aliases] none
  | .updateMetric org metric changes => do
    let metric ← required "metric_name" metric
    let org ← required "org_id" org
    return .update org (changes.ofMetric metric) (some (.metric metric))
  | .deleteMetric org metric => do
    let org ← required "org_id" org
    let metric ← required "metric_name" metric
    return .update org [.deleteMetric metric] none
  | .createField org metric field type aliases => do
    let org ← required "org_id" org
    let metric ← required "metric_name" metric
    let field ← required "field_name" field
    match type with
    | some type => return .update org [.createField metric field type aliases] none
    | none => throw (.missingField "field_type")
  | .updateField org metric field changes => do
    let metric ← required "metric_name" metric
    let field ← required "field_name" field
    let org ← required "org_id" org
    return .update org (changes.ofField metric field) (some (.field metric field))
  | .deleteField org metric field => do
    let org ← required "org_id" org
    let metric ← required "metric_name" metric
    let field ← required "field_name" field
    return .update org [.deleteField metric field] none
  | .getMetrics org => do
    return .getMetrics (← required "org_id" org)
  | .getMetric org metric => do
    let org ← required "org_id" org
    let metric ← required "metric_name" metric
    return .getMetric org metric
  | .getTenant org => do
    return .getTenant (← required "org_id" org)

end Request

end MetricRegistry
