import MetricRegistry.Command.Report
import MetricRegistry.Host.Basic
import MetricRegistry.Request.Handler

/-!
# Running a command line

`run` does on some host what a command line asks for.  The settings are loaded, and refused if they
cannot work, before the options of the command line replace what they set; then they are looked at
once more.  The request is read before the store is opened.
-/

namespace MetricRegistry.Command

open Catalog

/-- Why a command failed. -/
inductive Failure where
  | settings (error : SettingsError)
  /-- The request cannot be read. -/
  | reading (fault : ReadFault)
  | registry (error : RegistryError)
  deriving DecidableEq, Repr

/-- The wording of a failure. -/
def Failure.message : Failure → String
  | .settings error => error.message
  | .reading fault => fault.message
  | .registry error => error.message

/-- How a run ends. -/
inductive Ending where
  | done (output : String)
  | failed (failure : Failure)
  | stopped (stop : Stop)
  deriving DecidableEq, Repr

/-- What a run leaves to its caller: an exit code and two texts. -/
structure Exit where
  code : Nat
  output : String
  errors : String
  deriving DecidableEq, Repr

/-- The wording of a text about the usage, in short: it names the options of every command and
neither the commands nor what is wrong with a command line. -/
def usage : String :=
  "usage: schemareg [--config FILE] [--db FILE] [--retries N] [--format text|json] COMMAND\n"

/-- The exit that an ending makes. -/
def Ending.exit : Ending → Exit
  | .done output => ⟨0, output, ""⟩
  | .failed failure =>
    let text := failure.message
    ⟨1, "", s!"error: {text}\n"⟩
  | .stopped .version => ⟨0, "schemareg 0.4.0\n", ""⟩
  | .stopped .help => ⟨0, usage, ""⟩
  | .stopped .usage => ⟨2, "", usage⟩

/-- Settings with what the command line puts in their place. -/
def Line.override (line : Line) (s : Settings) : Settings :=
  let store := match line.database with
    | some path => { s.store with backend := .sqlite, path := some path }
    | none => s.store
  { s with store := store, retries := line.retries.getD s.retries }

variable {m : Type → Type} [Monad m]

/-- The text of the request in a file. -/
def readBody (host : Host m) (file : String) : m (Except ReadFault String) :=
  if file == "-" then host.readInput else host.readText file

/-- The request that an errand is about. -/
def readRequest (host : Host m) : Errand → m (Except Failure Request)
  | .request r => return .ok r
  | .apply file => do
    match ← readBody host file with
    | .error fault => return .error (.reading fault)
    | .ok body =>
      return (Request.ofJson (Text.utf8 body)).mapError (.registry ∘ .serialization)

/-- The settings of a command line. -/
def settingsOf (host : Host m) (line : Line) : m (Except Failure Settings) := do
  match ← host.loadSettings line.config with
  | .error e => return .error (.settings e)
  | .ok s =>
    let s := line.override s
    match s.validate with
    | .error fault => return .error (.settings (.invalid fault))
    | .ok () => return .ok s

/-- Answers a request on the store that settings ask for. -/
def serve (host : Host m) (s : Settings) (r : Request) : m (Except RegistryError Response) := do
  match ← host.openStore s.store with
  | .error e => return .error e
  | .ok store =>
    match s.retryer with
    | .error e => return .error e
    | .ok retryer => (handle retryer r).runOn store

/-- Does what a command line asks for. -/
def perform (host : Host m) (line : Line) : m Ending := do
  match ← settingsOf host line with
  | .error failure => return .failed failure
  | .ok s =>
    match ← readRequest host line.errand with
    | .error failure => return .failed failure
    | .ok r =>
      match ← serve host s r with
      | .error e => return .failed (.registry e)
      | .ok response => return .done (shown line.style response)

/-- Reads a command line and does what it asks for. -/
def run (host : Host m) (arguments : List String) : m Exit := do
  let config ← host.environment "SCHEMAREG_CONFIG"
  let database ← host.environment "SCHEMAREG_DB"
  match Line.parse config database arguments with
  | .error stop => return (Ending.stopped stop).exit
  | .ok line => return (← perform host line).exit

end MetricRegistry.Command
