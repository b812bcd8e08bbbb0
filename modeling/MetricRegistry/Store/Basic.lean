import MetricRegistry.Error

/-!
# Stores of documents

A store keeps one document for each key, with a version that grows by one with every change.
Writing is conditional: it takes place only if the stored version is the one that the writer
expects.  A `Store` does these two things in some monad; a `Program` is a computation that asks for
them step by step, so that it can be run on any store, and any other thing can happen between two
of its steps.
-/

namespace MetricRegistry

/-- A document and its version. -/
structure Stored where
  document : List UInt8
  version : Version
  deriving DecidableEq, Repr

/-- What came of a conditional write. -/
inductive Outcome where
  /-- The document is stored with this version. -/
  | committed (version : Version)
  /-- The stored version, if any, was not the expected one, and nothing was written. -/
  | conflict (actual : Option Version)
  deriving DecidableEq, Repr

/-- The version that a document gets when it is written over the expected one. -/
def nextVersion : Option Version → Version
  | none => 0
  | some version => version + 1

/-- Where documents are kept. -/
structure Store (m : Type → Type) where
  /-- The document under a key. -/
  read : String → m (Except RegistryError (Option Stored))
  /-- Writes a document under a key if the version stored there is as expected; none stands for
  the absence of a document. -/
  write : String → List UInt8 → Option Version → m (Except RegistryError Outcome)

/-- A computation that reads and writes documents. -/
inductive Program (α : Type) : Type where
  | done (result : α)
  | read (key : String) (resume : Except RegistryError (Option Stored) → Program α)
  | write (key : String) (document : List UInt8) (expected : Option Version)
    (resume : Except RegistryError Outcome → Program α)

namespace Program

variable {α β : Type}

/-- Goes on with what comes of a program. -/
def bind (p : Program α) (f : α → Program β) : Program β :=
  match p with
  | .done a => f a
  | .read key resume => .read key fun r => (resume r).bind f
  | .write key document expected resume => .write key document expected fun r => (resume r).bind f

instance : Monad Program where
  pure := .done
  bind := bind

/-- Runs a program on a store. -/
def run {m : Type → Type} [Monad m] (store : Store m) : Program α → m α
  | .done a => pure a
  | .read key resume => do
    let r ← store.read key
    (resume r).run store
  | .write key document expected resume => do
    let r ← store.write key document expected
    (resume r).run store

end Program

/-- A program that may fail. -/
abbrev Action (α : Type) := ExceptT RegistryError Program α

namespace Action

/-- Reads the document under a key. -/
def read (key : String) : Action (Option Stored) :=
  ExceptT.mk (.read key .done)

/-- Writes a document under a key if the stored version is as expected. -/
def write (key : String) (document : List UInt8) (expected : Option Version) : Action Outcome :=
  ExceptT.mk (.write key document expected .done)

/-- Goes on with a result or fails with an error. -/
def ofExcept {α : Type} (r : Except RegistryError α) : Action α :=
  ExceptT.mk (.done r)

/-- Runs an action on a store. -/
def runOn {m : Type → Type} [Monad m] {α : Type} (store : Store m) (a : Action α) :
    m (Except RegistryError α) :=
  Program.run store (ExceptT.run a)

end Action

end MetricRegistry
