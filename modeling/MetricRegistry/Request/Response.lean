import MetricRegistry.Catalog.Document

/-!
# Responses

What the registry answers to a request, and how that is written as JSON: an object whose member
`result` tells which kind of answer it is.
-/

namespace MetricRegistry

open Catalog Json

/-- The answer to a request. -/
inductive Response where
  | committed (org : String) (version : Version) (changed : Bool)
  | metrics (org : String) (version : Version) (metrics : List Metric)
  | metric (org : String) (version : Version) (metric : Metric)
  | tenant (tenant : Tenant)
  deriving DecidableEq, Repr

/-- A response as a value. -/
def Response.toValue : Response → Value
  | .committed org version changed =>
    .object [("result", .string "committed"), ("org_id", .string org), ("version", .nat version),
      ("changed", .bool changed)]
  | .metrics org version ms =>
    .object [("result", .string "metrics"), ("org_id", .string org), ("version", .nat version),
      ("metrics", .array (ms.map Metric.toValue))]
  | .metric org version m =>
    .object [("result", .string "metric"), ("org_id", .string org), ("version", .nat version),
      ("metric", m.toValue)]
  | .tenant t => .object (("result", .string "tenant") :: t.toMembers)

end MetricRegistry
