import MetricRegistry.Catalog.Document
import MetricRegistry.Store.Basic

/-!
# Looking at a catalog

A `Clerk` holds an organization's catalog as it was at one moment, and answers all questions from
that.
-/

namespace MetricRegistry

open Catalog

/-- The catalog that a key's document holds; it has to belong to that key. -/
def schemaOf (key : String) (stored : Stored) : Except RegistryError Schema := do
  let schema ← Schema.decode stored.document
  if schema.orgId != key then throw (.corruption (.foreign key schema.orgId))
  return schema

/-- A catalog as it was at one moment. -/
structure Clerk where
  version : Version
  schema : Schema
  deriving DecidableEq, Repr

namespace Clerk

/-- Reads the catalog of an organization. -/
def opened (org : String) : Action Clerk := do
  match ← Action.read org with
  | none => throw (.rejected (.notFound .org org))
  | some stored => return ⟨stored.version, ← Action.ofExcept (schemaOf org stored)⟩

/-- The metric that answers to a name. -/
def metric (c : Clerk) (name : String) : Except Rejection Metric :=
  match c.schema.metric? name with
  | some m => .ok m
  | none => .error (.notFound .metric name)

/-- The field that answers to a name, of the metric that answers to another. -/
def field (c : Clerk) (metric name : String) : Except Rejection Field := do
  let m ← c.metric metric
  match m.field? name with
  | some f => return f
  | none => throw (.notFound .field name)

end Clerk

end MetricRegistry
