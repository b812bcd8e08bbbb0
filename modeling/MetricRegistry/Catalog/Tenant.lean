import MetricRegistry.Json.Value
import MetricRegistry.Timestamp.Format

/-!
# What an organization's events look like

A `Tenant` says under which keys an event of an organization names its metric and how it writes
its timestamps.  In both lists the first entry that fits decides.
-/

namespace MetricRegistry.Catalog

open Json

/-- How to read the events of an organization. -/
structure Tenant where
  orgId : String
  /-- The keys whose value names the metric of an event. -/
  metricKeys : List String
  timestampFormats : List String
  deriving DecidableEq, Repr

namespace Tenant

/-- The name of an event's metric: the first key with a text decides. -/
def metricName? (t : Tenant) (event : Value) : Option String :=
  t.metricKeys.findSome? fun key => (event.get? key).bind Value.text?

/-- The instant that a raw timestamp stands for. -/
def timestamp? (t : Tenant) (raw : String) : Option Timestamp.Instant :=
  Timestamp.parseFirst t.timestampFormats raw

/-- The members of the object that shows a tenant. -/
def toMembers (t : Tenant) : List (String × Value) :=
  [("org_id", .string t.orgId), ("metric_key_aliases", .texts t.metricKeys),
    ("timestamp_patterns", .texts t.timestampFormats)]

end Tenant

end MetricRegistry.Catalog
