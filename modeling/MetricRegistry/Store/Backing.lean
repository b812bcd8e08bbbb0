import MetricRegistry.Store.Memory
import MetricRegistry.Store.Table

/-!
# Stores of either kind

A `Backing` is what a store keeps: documents in memory, or a database of which one table is used.
-/

namespace MetricRegistry

/-- What a store keeps. -/
inductive Backing where
  | memory (documents : Documents)
  | table (name : String) (database : Database)
  deriving DecidableEq, Repr

namespace Backing

/-- The store of documents in a backing. -/
def store : Store (StateM Backing) where
  read key := do
    match ← get with
    | .memory ds => return .ok (ds.get? key)
    | .table name db => return (db.table name).read key
  write key document expected := do
    match ← get with
    | .memory ds =>
      let (outcome, ds) := ds.write key document expected
      set (Backing.memory ds)
      return .ok outcome
    | .table name db =>
      match (db.table name).write key document expected with
      | .ok (outcome, t) =>
        set (Backing.table name (db.setTable name t))
        return .ok outcome
      | .error e => return .error e

end Backing

end MetricRegistry
