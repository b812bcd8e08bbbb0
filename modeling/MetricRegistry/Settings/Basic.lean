import MetricRegistry.Registry.Retry
import MetricRegistry.Store.Table

/-!
# Settings

How a registry is set up: how often commits are tried again, and where the documents are kept.
`Settings.validate` refuses settings that cannot work.
-/

namespace MetricRegistry

/-- The kinds of store. -/
inductive Backend where
  /-- In the memory of the process. -/
  | memory
  /-- In a table of a database file. -/
  | sqlite
  deriving DecidableEq, Repr

/-- Where the documents are kept. -/
structure StoreSettings where
  backend : Backend := .memory
  /-- The database file. -/
  path : Option String := none
  table : String := Database.defaultTable
  /-- How long to wait for a database that is in use, in milliseconds. -/
  busyMillis : Nat := 5000
  deriving DecidableEq, Repr

/-- How a registry is set up. -/
structure Settings where
  /-- The number of attempts that a commit gets. -/
  retries : Nat := Retryer.defaultAttempts
  /-- The pause between two attempts, in milliseconds. -/
  backoffMillis : Nat := 0
  store : StoreSettings := {}
  deriving DecidableEq, Repr

/-- Why settings cannot work. -/
inductive SettingsFault where
  | noAttempts
  | noDatabasePath
  | noTableName
  deriving DecidableEq, Repr

/-- Why there are no settings. -/
inductive SettingsError where
  /-- The file is there but cannot be read. -/
  | unreadable (path problem : String)
  /-- The text is not TOML, or sets what is no setting. -/
  | malformed (path : String)
  | invalid (fault : SettingsFault)
  deriving DecidableEq, Repr

/-- The wording of a fault. -/
def SettingsFault.message : SettingsFault → String
  | .noAttempts => "retries must be at least 1"
  | .noDatabasePath => "store.path is required for the sqlite backend"
  | .noTableName => "store.table must not be empty"

/-- The wording of an error. -/
def SettingsError.message : SettingsError → String
  | .unreadable path problem => s!"failed to read config {path}: {problem}"
  | .malformed path => s!"failed to parse config {path}: not the settings of a registry"
  | .invalid fault =>
    let text := fault.message
    s!"invalid config: {text}"

/-- Refuses settings that cannot work. -/
def Settings.validate (s : Settings) : Except SettingsFault Unit :=
  if s.retries = 0 then .error .noAttempts
  else if s.store.backend = .sqlite ∧ s.store.path = none then .error .noDatabasePath
  else if s.store.table.isEmpty then .error .noTableName
  else .ok ()

/-- The retryer that the settings ask for. -/
def Settings.retryer (s : Settings) : Except RegistryError Retryer :=
  Retryer.ofAttempts s.retries s.backoffMillis

end MetricRegistry
