import MetricRegistry.Catalog.Schema

/-!
# Changes of a catalog

A `Mutation` is one change of a catalog.  It refers to metrics and fields by any of their names, as
they are when its turn comes.  `Schema.apply` makes one change and `Schema.applyAll` several, each
seeing what the ones before it did; both give a rejection and nothing else where a change is not
possible.
-/

namespace MetricRegistry.Catalog

/-- A change of a catalog. -/
inductive Mutation where
  | setMetricKeys (keys : List String)
  | setTimestampFormats (formats : List String)
  | createMetric (name : String) (aliases : List String)
  | renameMetric (metric newName : String)
  | addMetricAlias (metric alternate : String)
  | removeMetricAlias (metric alternate : String)
  | deleteMetric (metric : String)
  | createField (metric name : String) (type : FieldType) (aliases : List String)
  | renameField (metric field newName : String)
  | addFieldAlias (metric field alternate : String)
  | removeFieldAlias (metric field alternate : String)
  | deleteField (metric field : String)
  deriving DecidableEq, Repr

/-- Checks that texts may serve as timestamp formats. -/
def validateFormats (formats : List String) : Except Violation Unit :=
  formats.forM fun f => (Timestamp.validateFormat f).mapError .badTimestampFormat

namespace Schema

/-- Changes the metrics of a catalog. -/
def changeMetrics (s : Schema)
    (change : Directory Metric → Except Rejection (Directory Metric)) :
    Except Rejection Schema := do
  return { s with metrics := ← change s.metrics }

/-- Changes the fields of a metric. -/
def changeFields (s : Schema) (metric : String)
    (change : Scope → Directory Field → Except Rejection (Directory Field)) :
    Except Rejection Schema :=
  s.changeMetrics <| Directory.update .metrics metric fun m => do
    return { m with fields := ← change m.scope m.fields }

/-- Makes a change. -/
def edit (s : Schema) : Mutation → Except Rejection Schema
  | .setMetricKeys keys => do
    (validateDistinct "metric key" keys).mapError .invalid
    return { s with metricKeys := keys }
  | .setTimestampFormats formats => do
    (validateFormats formats).mapError .invalid
    return { s with timestampFormats := formats }
  | .createMetric name aliases =>
    s.changeMetrics (Directory.create .metrics (fun id n => ⟨id, n, .empty⟩) ⟨name, aliases⟩)
  | .renameMetric metric newName => do
    (validateName "metric name" newName).mapError .invalid
    s.changeMetrics (Directory.rename .metrics metric newName)
  | .addMetricAlias metric alternate => do
    (validateName "metric alias" alternate).mapError .invalid
    s.changeMetrics (Directory.addAlias .metrics metric alternate)
  | .removeMetricAlias metric alternate =>
    s.changeMetrics (Directory.removeAlias .metrics metric alternate)
  | .deleteMetric metric =>
    s.changeMetrics (Directory.delete .metrics metric)
  | .createField metric name type aliases =>
    s.changeFields metric fun scope =>
      Directory.create scope (fun id n => ⟨id, n, type⟩) ⟨name, aliases⟩
  | .renameField metric field newName => do
    (validateName "field name" newName).mapError .invalid
    s.changeFields metric fun scope => Directory.rename scope field newName
  | .addFieldAlias metric field alternate => do
    (validateName "field alias" alternate).mapError .invalid
    s.changeFields metric fun scope => Directory.addAlias scope field alternate
  | .removeFieldAlias metric field alternate =>
    s.changeFields metric fun scope => Directory.removeAlias scope field alternate
  | .deleteField metric field =>
    s.changeFields metric fun scope => Directory.delete scope field

/-- Makes a change and checks the catalog that comes of it. -/
def apply (s : Schema) (m : Mutation) : Except Rejection Schema := do
  let s ← s.edit m
  s.check.mapError .invalid
  return s

/-- Makes several changes, one after the other. -/
def applyAll (s : Schema) (ms : List Mutation) : Except Rejection Schema :=
  ms.foldlM apply s

end Schema

end MetricRegistry.Catalog
