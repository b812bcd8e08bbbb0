import MetricRegistry.Registry.Commit
import MetricRegistry.Registry.Retry
import MetricRegistry.Request.Json
import MetricRegistry.Request.Response

/-!
# Handling requests

`handle` answers a request.  A request that lacks something is rejected before the store is
touched.  Updates are tried again after a conflict; an update without changes reads the catalog
once, to see that what it is about is there.
-/

namespace MetricRegistry

open Catalog

/-- The response to a commit. -/
def Committed.response (c : Committed) : Response :=
  .committed c.org c.version c.changed

/-- Whether what an update is about is there. -/
def Clerk.checkTarget (c : Clerk) : Option Target → Except Rejection Unit
  | none => .ok ()
  | some (.metric metric) => do
    let _ ← c.metric metric
  | some (.field metric field) => do
    let _ ← c.field metric field

/-- Answers an update without changes. -/
def unchanged (org : String) (target : Option Target) : Action Response := do
  let c ← Clerk.opened org
  Action.ofExcept ((c.checkTarget target).mapError .rejected)
  return .committed c.schema.orgId c.version false

/-- Does what a plan says. -/
def Plan.perform (retryer : Retryer) : Plan → Action Response
  | .createOrg org => return (← commitNew org).response
  | .update org mutations target => do
    if mutations.isEmpty then unchanged org target
    else
      let c ← ExceptT.mk (retryer.run (ExceptT.run (commitChanges org mutations)))
      return c.response
  | .getMetrics org => do
    let c ← Clerk.opened org
    return .metrics c.schema.orgId c.version c.schema.metrics.entries
  | .getMetric org metric => do
    let c ← Clerk.opened org
    let m ← Action.ofExcept ((c.metric metric).mapError .rejected)
    return .metric c.schema.orgId c.version m
  | .getTenant org => do
    let c ← Clerk.opened org
    return .tenant c.schema.toTenant

/-- Answers a request. -/
def handle (retryer : Retryer) (request : Request) : Action Response := do
  let plan ← Action.ofExcept (request.plan.mapError .rejected)
  plan.perform retryer

/-- Answers the request that a text spells. -/
def handleJson (retryer : Retryer) (body : List UInt8) : Action Response := do
  let request ← Action.ofExcept ((Request.ofJson body).mapError .serialization)
  handle retryer request

end MetricRegistry
