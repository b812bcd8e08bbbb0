import MetricRegistry.Catalog.Directory
import MetricRegistry.Catalog.FieldType
import MetricRegistry.Catalog.Tenant

/-!
# The catalog of an organization

A `Schema` is a directory of metrics beside the organization's tenant data, and a `Metric` holds a
directory of typed fields.  `Schema.check` decides whether every id and every name in it stands for
one thing.
-/

namespace MetricRegistry.Catalog

/-- A typed attribute of a metric. -/
structure Field where
  id : UInt32
  naming : Naming
  type : FieldType
  deriving DecidableEq, Repr

instance : Entry Field where
  id := Field.id
  naming := Field.naming
  rename f n := { f with naming := n }

/-- A kind of event. -/
structure Metric where
  id : UInt32
  naming : Naming
  fields : Directory Field
  deriving DecidableEq, Repr

instance : Entry Metric where
  id := Metric.id
  naming := Metric.naming
  rename m n := { m with naming := n }

/-- The scope of the names of a metric's fields. -/
def Metric.scope (m : Metric) : Scope :=
  .fieldsOf m.naming.name

/-- Checks the fields of a metric. -/
def Metric.check (m : Metric) : Except Violation Unit :=
  m.fields.check m.scope fun _ => .ok ()

/-- The catalog of an organization. -/
structure Schema extends Tenant where
  metrics : Directory Metric
  deriving DecidableEq, Repr

namespace Schema

/-- The catalog that an organization starts with. -/
def ofOrg (orgId : String) : Except Violation Schema := do
  validateName "org id" orgId
  return ⟨⟨orgId, [], []⟩, .empty⟩

/-- Checks the metrics of a catalog and their fields. -/
def check (s : Schema) : Except Violation Unit :=
  s.metrics.check .metrics Metric.check

/-- The metric that answers to a name. -/
def metric? (s : Schema) (name : String) : Option Metric :=
  s.metrics.find? name

end Schema

/-- The field of a metric that answers to a name. -/
def Metric.field? (m : Metric) (name : String) : Option Field :=
  m.fields.find? name

end MetricRegistry.Catalog
