import MetricRegistry.Settings.Toml
import MetricRegistry.Store.Location

/-!
# What a run sees of its machine

A `Host` offers the environment, the files and the databases of a machine.  With it,
`Host.loadSettings` finds the settings of a run and `Host.openStore` the store that they ask for.
-/

namespace MetricRegistry

/-- Why a file cannot be read. -/
inductive ReadFault where
  | notFound
  /-- A part of the path before the last is no directory. -/
  | notDirectory
  | isDirectory
  | nameTooLong
  /-- The bytes of the file spell no text. -/
  | notText
  /-- Any other reason, in words. -/
  | other (reason : String)
  deriving DecidableEq, Repr

/-- The wording of a fault. -/
def ReadFault.message : ReadFault → String
  | .notFound => "No such file or directory (os error 2)"
  | .notDirectory => "Not a directory (os error 20)"
  | .isDirectory => "Is a directory (os error 21)"
  | .nameTooLong => "File name too long (os error 36)"
  | .notText => "stream did not contain valid UTF-8"
  | .other reason => reason

/-- What a run sees of its machine. -/
structure Host (m : Type → Type) where
  /-- The value of an environment variable. -/
  environment : String → m (Option String)
  /-- Whether there is anything under a path. -/
  present : String → m Bool
  /-- The text of a file. -/
  readText : String → m (Except ReadFault String)
  /-- The text on the standard input. -/
  readInput : m (Except ReadFault String)
  /-- A store in memory, empty at first. -/
  openMemory : m (Store m)
  /-- A table of the database at a location.  The table is made if it is missing, and so is the
  database if the location allows it. -/
  openDatabase : Location → String → m (Except RegistryError (Store m))

namespace Host

variable {m : Type → Type} [Monad m]

/-- Adds a name to the path of a directory. -/
def join (directory name : String) : String :=
  if directory.endsWith "/" then directory ++ name else directory ++ "/" ++ name

/-- The directory of the user's settings: the one that the environment names, if its path starts at
the root, and else one in the home directory. -/
def settingsDirectory? (host : Host m) : m (Option String) := do
  match ← host.environment "XDG_CONFIG_HOME" with
  | some d => if d.startsWith "/" then return some d else fromHome
  | none => fromHome
where
  /-- The directory of settings in the home directory. -/
  fromHome : m (Option String) := do
    match ← host.environment "HOME" with
    | some home => return if home.isEmpty then none else some (join home ".config")
    | none => return none

/-- The file of the settings, where no other is named. -/
def settingsFile? (host : Host m) : m (Option String) := do
  return (← host.settingsDirectory?).map fun d => join (join d "schemareg") "config.toml"

/-- The settings in a file. -/
def readSettings (host : Host m) (path : String) : m (Except SettingsError Settings) := do
  match ← host.readText path with
  | .error fault => return .error (.unreadable path fault.message)
  | .ok text =>
    match Settings.ofToml? text with
    | none => return .error (.malformed path)
    | some s => return .ok s

/-- The settings of a run, if they can work.  A file that is not there sets nothing. -/
def loadSettings (host : Host m) (explicit : Option String) :
    m (Except SettingsError Settings) := do
  let path ← match explicit with
    | some path => pure (some path)
    | none => host.settingsFile?
  let read ← match path with
    | none => pure (.ok {})
    | some path => if ← host.present path then host.readSettings path else pure (.ok {})
  return do
    let s ← read
    s.validate.mapError .invalid
    return s

/-- The store that settings ask for. -/
def openStore (host : Host m) (s : StoreSettings) : m (Except RegistryError (Store m)) := do
  match s.backend with
  | .memory => return .ok (← host.openMemory)
  | .sqlite =>
    match Location.ofName? (s.path.getD "") with
    | some location => host.openDatabase location s.table
    | none => return .error .storage

end Host

end MetricRegistry
