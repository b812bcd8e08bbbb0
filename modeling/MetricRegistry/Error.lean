import MetricRegistry.Catalog.Violation
import MetricRegistry.Json.Fault

/-!
# Errors of the registry

A `Rejection` says what is wrong with what the caller sent.  A `RegistryError` is a rejection or a
failure on the registry's side: a lost race, a bad configuration, a damaged document, a failing
store.  Only a lost race, a `conflict`, may go away when the caller tries again.
-/

namespace MetricRegistry

open Catalog

/-- The version of a stored document: the number of changes since its creation. It is a natural
number, to which there is always a next one; a counter of 64 bits would overflow after 2⁶⁴ - 1. -/
abbrev Version := Nat

/-- What is wrong with what the caller sent. -/
inductive Rejection where
  | alreadyExists (entity : Entity) (name : String)
  | notFound (entity : Entity) (name : String)
  | invalid (violation : Violation)
  | missingField (name : String)
  deriving DecidableEq, Repr

/-- What is wrong with a stored document. -/
inductive Damage where
  /-- The catalog in the document breaks a rule. -/
  | inconsistent (org : String) (violation : Violation)
  /-- The document is stored under a key that is not its organization. -/
  | foreign (key owner : String)
  /-- A version does not fit into the 63 bits of a table's column. -/
  | versionTooLarge (version : Version)
  | negativeVersion (stored : Int)
  /-- Any other damage, in words. -/
  | stated (damage : String)
  deriving DecidableEq, Repr

/-- Why the registry did not do what it was asked. -/
inductive RegistryError where
  | rejected (rejection : Rejection)
  /-- Another writer changed the document after this one had read it; `expected` is the version
  read, none for a document that was to be created. -/
  | conflict (org : String) (expected : Option Version)
  | configuration (problem : String)
  | corruption (damage : Damage)
  | io (problem : String)
  /-- The database behind a store failed. -/
  | storage
  /-- A text is not the JSON that was asked for. -/
  | serialization (fault : Json.Fault)
  deriving DecidableEq, Repr

/-- The wording of a rejection. -/
def Rejection.message : Rejection → String
  | .alreadyExists entity name =>
    let word := entity.word
    s!"{word} '{name}' already exists"
  | .notFound entity name =>
    let word := entity.word
    s!"{word} '{name}' not found"
  | .invalid violation =>
    let rule := violation.message
    s!"invalid mutation: {rule}"
  | .missingField name => s!"missing required field '{name}'"

/-- The wording of a damage. -/
def Damage.message : Damage → String
  | .inconsistent org violation =>
    let rejection := (Rejection.invalid violation).message
    s!"stored schema for org '{org}' is inconsistent: {rejection}"
  | .foreign key owner => s!"document stored under '{key}' belongs to org '{owner}'"
  | .versionTooLarge version => s!"version {version} exceeds i64 range"
  | .negativeVersion stored => s!"negative stored version {stored}"
  | .stated damage => damage

namespace RegistryError

/-- The version that a conflict names. -/
def expectedText : Option Version → String
  | none => "None"
  | some version => s!"Some(SchemaVersion({version}))"

/-- The wording of an error. A database that failed and a text that is not the JSON that was asked
for are worded in general terms, without what a database or a reader of JSON says of the case. -/
def message : RegistryError → String
  | .rejected rejection => rejection.message
  | .conflict org expected =>
    let read := expectedText expected
    s!"schema for org '{org}' was modified concurrently (read version {read})"
  | .configuration problem => s!"invalid configuration: {problem}"
  | .corruption damage =>
    let text := damage.message
    s!"corruption: {text}"
  | .io problem => s!"I/O: {problem}"
  | .storage => "storage: the database failed"
  | .serialization .truncated => "serialization: the text ends early"
  | .serialization .malformed => "serialization: the text is not JSON"
  | .serialization .mismatched => "serialization: the JSON has another shape"

/-- Whether the error is a lost race. -/
def isConflict : RegistryError → Bool
  | .conflict .. => true
  | _ => false

/-- Whether the caller is to blame. -/
def isRejection : RegistryError → Bool
  | .rejected _ => true
  | _ => false

end RegistryError

end MetricRegistry
