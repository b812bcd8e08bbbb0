import MetricRegistry.Catalog.Mutation
import MetricRegistry.Registry.Clerk

/-!
# Changing catalogs

`commitNew` stores the first catalog of an organization, `commitChanges` makes several changes of a
stored one.  Each takes effect by one conditional write or not at all: an update that another writer
overtook ends in a conflict, and one that changes nothing does not write.
-/

namespace MetricRegistry

open Catalog

/-- What an organization's catalog is after a commit. -/
structure Committed where
  org : String
  version : Version
  schema : Schema
  /-- Whether anything was written. -/
  changed : Bool
  deriving DecidableEq, Repr

/-- Stores the catalog that a new organization starts with. -/
def commitNew (org : String) : Action Committed := do
  let schema ← Action.ofExcept ((Schema.ofOrg org).mapError (.rejected ∘ .invalid))
  match ← Action.write org schema.encode none with
  | .committed version => return ⟨org, version, schema, true⟩
  | .conflict _ => throw (.rejected (.alreadyExists .org org))

/-- Makes changes of an organization's catalog, all of them or none. -/
def commitChanges (org : String) (mutations : List Mutation) : Action Committed := do
  let base ← Clerk.opened org
  if mutations.isEmpty then return ⟨org, base.version, base.schema, false⟩
  let schema ← Action.ofExcept ((base.schema.applyAll mutations).mapError .rejected)
  match ← Action.write org schema.encode (some base.version) with
  | .committed version => return ⟨org, version, schema, true⟩
  | .conflict _ => throw (.conflict org (some base.version))

end MetricRegistry
