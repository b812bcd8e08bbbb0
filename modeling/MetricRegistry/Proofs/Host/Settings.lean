import MetricRegistry.Host.Workspace
import MetricRegistry.Proofs.Outcome

/-!
# Settings that a run loads

`Settings.validate_cases` says which faults `validate` looks for. A run `Finds` settings where the
text of its file spells them, whether they can work or not, and the usual ones where there is no
file; `run_loadSettings` says that it loads what it finds if that can work, and changes nothing.
-/

namespace MetricRegistry

/-! ## Faults -/

namespace Settings

variable {s : Settings}

/-- A fault that settings have. -/
def Has (s : Settings) : SettingsFault → Prop
  | .noAttempts => s.retries = 0
  | .noDatabasePath => s.store.backend = .sqlite ∧ s.store.path = none
  | .noTableName => s.store.table = ""

/-- Settings have the fault they are refused for, and none if they are valid. -/
lemma validate_cases (s : Settings) : (∃ fault, s.validate = .error fault ∧ s.Has fault)
    ∨ s.validate = .ok () ∧ ∀ fault, ¬ s.Has fault := by
  unfold validate
  split
  case isTrue none => exact .inl ⟨_, rfl, none⟩
  case isFalse attempts =>
  split
  case isTrue unfiled => exact .inl ⟨_, rfl, unfiled⟩
  case isFalse filed =>
  split
  case isTrue unnamed => exact .inl ⟨_, rfl, String.isEmpty_iff.mp unnamed⟩
  case isFalse named =>
    refine .inr ⟨rfl, fun fault => ?_⟩
    cases fault with
    | noAttempts => exact attempts
    | noDatabasePath => exact filed
    | noTableName => exact mt String.isEmpty_iff.mpr named

/-- Settings are refused at all if they have a fault. -/
lemma exists_validate_iff : (∃ fault, s.validate = .error fault) ↔ ∃ fault, s.Has fault := by
  obtain ⟨fault, refused, has⟩ | ⟨valid, none⟩ := s.validate_cases
  · exact ⟨fun _ => ⟨fault, has⟩, fun _ => ⟨fault, refused⟩⟩
  · simp [valid, none]

/-- Settings are valid if they have no fault. -/
lemma validate_eq_ok : s.validate = .ok () ↔ ∀ fault, ¬ s.Has fault := by
  obtain ⟨fault, refused, has⟩ | ⟨valid, none⟩ := s.validate_cases
  · exact ⟨fun valid => by simp [valid] at refused, fun none => (none fault has).elim⟩
  · exact ⟨fun _ => none, fun _ => valid⟩

end Settings

/-! ## Files -/

namespace Workspace

/-- The file from which a run takes its settings. -/
def settingsPath? (w : Workspace) (explicit : Option String) : Option String :=
  explicit.or (host.settingsFile?.run w).1

/-- The settings that a run finds, whether they can work or not. -/
inductive Finds (w : Workspace) (explicit : Option String) : Settings → Prop where
  | file {path text s} :
    w.settingsPath? explicit = some path →
    w.readText path = .ok text →
    Settings.ofToml? text = some s →
    Finds w explicit s
  | missing {path} :
    w.settingsPath? explicit = some path →
    w.present path = false →
    Finds w explicit {}
  | nowhere :
    w.settingsPath? explicit = none →
    Finds w explicit {}

variable {w : Workspace} {explicit : Option String} {path text : String} {s : Settings}

/-- Looking for the file changes nothing. -/
lemma run_settingsFile? {path : Option String} (leads : (host.settingsFile?.run w).1 = path) :
    host.settingsFile?.run w = (path, w) := by
  have look (name : String) : (host.environment name).run w = (w.environment.lookup name, w) := rfl
  have home : ((Host.settingsDirectory?.fromHome host).run w).2 = w := by
    rw [Host.settingsDirectory?.fromHome, StateM.run_bind_of_run (look _)]
    split <;> rfl
  have directory : (host.settingsDirectory?.run w).2 = w := by
    rw [Host.settingsDirectory?, StateM.run_bind_of_run (look _)]
    split
    · split
      · rfl
      · exact home
    · exact home
  exact Prod.ext leads directory

/-- A file that is read is there. -/
lemma present_of_readText (read : w.readText path = .ok text) : w.present path = true := by
  unfold readText at read
  unfold present
  cases found : w.look path with
  | nothing reason => simp [found] at read
  | _ => rfl

/-- Settings that a file spells out are read. -/
lemma run_readSettings (read : w.readText path = .ok text)
    (parsed : Settings.ofToml? text = some s) : (host.readSettings path).run w = (.ok s, w) := by
  have opened : (host.readText path).run w = (.ok text, w) := congrArg (·, w) read
  rw [Host.readSettings, StateM.run_bind_of_run opened]
  dsimp only
  rw [parsed]
  rfl

/-- What is loaded under a path is what is read there, if it can work. -/
lemma run_loadSettings_some {found : Except SettingsError Settings}
    (read : (if w.present path then host.readSettings path else return .ok {}).run w
      = (found, w)) :
    (host.loadSettings (some path)).run w
      = (do let s ← found; s.validate.mapError .invalid; return s, w) := by
  have there : (host.present path).run w = (w.present path, w) := rfl
  unfold Host.loadSettings
  dsimp only
  rw [pure_bind]
  dsimp only
  rw [StateM.run_bind_of_run there]
  split at read
  case isTrue present =>
    rw [if_pos present, StateM.run_bind_of_run read]
    rfl
  case isFalse absent =>
    rw [if_neg absent, StateM.run_bind_of_run read]
    rfl

/-- A file that no option names is loaded like one that an option names. -/
lemma run_loadSettings_none (leads : host.settingsFile?.run w = (some path, w)) :
    (host.loadSettings none).run w = (host.loadSettings (some path)).run w := by
  unfold Host.loadSettings
  dsimp only
  rw [StateM.run_bind_of_run leads]
  rfl

/-- Settings that are looked for are read from where they are found. -/
lemma run_loadSettings_of_path (leads : w.settingsPath? explicit = some path) :
    (host.loadSettings explicit).run w = (host.loadSettings (some path)).run w := by
  cases explicit with
  | some named =>
    cases leads
    rfl
  | none => exact run_loadSettings_none (run_settingsFile? leads)

/-- The settings that are found are validated and used. -/
lemma run_loadSettings (finds : w.Finds explicit s) :
    (host.loadSettings explicit).run w = ((do s.validate.mapError .invalid; return s), w) := by
  cases finds with
  | file leads read parsed =>
    rw [run_loadSettings_of_path leads]
    refine @run_loadSettings_some w _ (.ok s) ?_
    rw [if_pos (present_of_readText read)]
    exact run_readSettings read parsed
  | missing leads absent =>
    rw [run_loadSettings_of_path leads]
    refine @run_loadSettings_some w _ (.ok {}) ?_
    rw [if_neg (by simp [absent])]
    rfl
  | nowhere leads =>
    cases explicit with
    | some named => cases leads
    | none =>
      unfold Host.loadSettings
      dsimp only
      rw [StateM.run_bind_of_run (run_settingsFile? leads)]
      rfl

end Workspace

end MetricRegistry
