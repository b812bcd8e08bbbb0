import MetricRegistry.Registry.Commit

/-!
# Stores under contention

A store that others use at the same time, and that fails now and then, as far as one of its users
can tell.  `Contention` says what is going to happen: how many of the next reads and writes fail,
and which rival commits take place just before the next writes over an expected version.  It counts
the reads and the writes that reached the store.
-/

namespace MetricRegistry

open Catalog

/-- A commit by somebody else. -/
structure Rival where
  org : String
  mutations : List Mutation
  deriving DecidableEq, Repr

/-- What is going to happen to the users of a store, and what has happened. -/
structure Contention where
  failingReads : Nat := 0
  failingWrites : Nat := 0
  /-- What comes before each of the next writes over an expected version. -/
  races : List (Option Rival) := []
  reads : Nat := 0
  writes : Nat := 0
  deriving DecidableEq, Repr

namespace Contention

/-- Counts a read and decides whether it fails. -/
def countRead (c : Contention) : Bool × Contention :=
  (0 < c.failingReads,
    { c with reads := c.reads + 1, failingReads := c.failingReads - 1 })

/-- Counts a write and decides whether it fails. -/
def countWrite (c : Contention) : Bool × Contention :=
  (0 < c.failingWrites,
    { c with writes := c.writes + 1, failingWrites := c.failingWrites - 1 })

/-- What comes before the next write over an expected version. -/
def nextRace (c : Contention) : Option Rival × Contention :=
  match c.races with
  | [] => (none, c)
  | race :: races => (race, { c with races := races })

variable {m : Type → Type} [Monad m]

/-- Lets a rival commit to a store. -/
def race (inner : Store m) : Option Rival → m (Except RegistryError Unit)
  | none => return .ok ()
  | some rival => do
    match ← (commitChanges rival.org rival.mutations).runOn inner with
    | .ok _ => return .ok ()
    | .error e => return .error e

/-- A store under contention.  A rival whose commit fails takes the write with it. -/
def store (inner : Store m) : Store (StateT Contention m) where
  read key := do
    if ← modifyGet countRead then return .error (.io "injected read failure")
    inner.read key
  write key document expected := do
    if ← modifyGet countWrite then return .error (.io "injected write failure")
    let rival ← if expected.isSome then modifyGet nextRace else pure none
    let raced : m (Except RegistryError Unit) := race inner rival
    match ← raced with
    | .ok () => inner.write key document expected
    | .error e => return .error e

end Contention

end MetricRegistry
