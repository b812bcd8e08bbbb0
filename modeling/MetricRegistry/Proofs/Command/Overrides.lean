import MetricRegistry.Proofs.Command.Runs
import MetricRegistry.Proofs.Host.Settings

/-!
# Settings that the command line overrides

The settings of a run are judged twice: as they are found, and after the options of the command line
have replaced some of them (`run_settingsOf_finds`). So a run is refused for a fault of either, as
`settings_refused` says: a fault that is left in the end always refuses it, and so does one that an
option would have mended. `override_ignored` shows a run of each kind that its options cannot save.
-/

namespace MetricRegistry.Command

open Workspace (host)

variable {w : Workspace} {line : Line} {s : Settings} {fault : SettingsFault}

/-! ## Options -/

/-- An option replaces what a fault is about by something without it. -/
def Line.Mends (line : Line) : SettingsFault → Prop
  | .noAttempts => ∃ n ∈ line.retries, n ≠ 0
  | .noDatabasePath => line.database ≠ none
  | .noTableName => False

/-- The faults that are left are those that no option mends, and the one that an option makes. -/
lemma override_has : (line.override s).Has fault
    ↔ s.Has fault ∧ ¬ line.Mends fault ∨ fault = .noAttempts ∧ line.retries = some 0 := by
  cases fault with
  | noAttempts =>
    cases retries : line.retries <;> simp [Line.override, Settings.Has, Line.Mends, retries]
  | noDatabasePath =>
    cases database : line.database <;> simp [Line.override, Settings.Has, Line.Mends, database]
  | noTableName =>
    cases database : line.database <;> simp [Line.override, Settings.Has, Line.Mends, database]

/-- No fault is left if the options mend all that are found and make none. -/
lemma override_clear : (∀ fault, ¬ (line.override s).Has fault)
    ↔ (∀ fault, s.Has fault → line.Mends fault) ∧ line.retries ≠ some 0 := by
  simp only [override_has, not_or, not_and, not_not, forall_and, forall_eq]

/-! ## Runs -/

/-- The settings with which a run goes on, judged before and after the options replace some. -/
def Line.judged (line : Line) (s : Settings) : Except SettingsFault Settings := do
  s.validate
  (line.override s).validate
  return line.override s

/-- Settings are refused for a fault of the file, or for a fault the options make. -/
lemma judged_eq_error : line.judged s = .error fault
    ↔ s.validate = .error fault
      ∨ s.validate = .ok () ∧ (line.override s).validate = .error fault := by
  unfold Line.judged
  cases s.validate with
  | error fault' => simp [bind, Except.bind]
  | ok => cases (line.override s).validate <;> simp [bind, Except.bind, pure, Except.pure]

/-- Settings that are not refused are those the options make. -/
lemma judged_eq_ok {s' : Settings} (judged : line.judged s = .ok s') : s' = line.override s := by
  simp only [Line.judged, Except.bind_eq_ok, Except.pure_eq_ok] at judged
  obtain ⟨-, -, -, -, rfl⟩ := judged
  rfl

/-- Settings are refused at all if the file or what the options make of it has a fault. -/
lemma exists_judged_error : (∃ fault, line.judged s = .error fault)
    ↔ (∃ fault, s.Has fault) ∨ ∃ fault, (line.override s).Has fault := by
  rw [← Settings.exists_validate_iff, ← Settings.exists_validate_iff]
  simp only [judged_eq_error, exists_or, exists_and_left]
  obtain ⟨fault, refused, -⟩ | ⟨valid, -⟩ := s.validate_cases
  · simp [refused]
  · simp [valid]

/-- A command finds the settings it judges. -/
lemma run_settingsOf_finds (finds : w.Finds line.config s) :
    (settingsOf host line).run w = ((line.judged s).mapError (.settings ∘ .invalid), w) := by
  rw [settingsOf, StateM.run_bind_of_run (Workspace.run_loadSettings finds), Line.judged]
  cases s.validate with
  | error fault => rfl
  | ok =>
    simp only [bind, Except.bind, Except.mapError, pure, Except.pure]
    cases (line.override s).validate <;> rfl

/-- No file that a command reads is at fault for its settings. -/
lemma requestIn_ne_settings (errand : Errand) (e : SettingsError) :
    requestIn w errand ≠ .error (.settings e) := by
  cases errand with
  | request r => nofun
  | apply file => simp [requestIn, Except.bind_eq_error]

/-- What comes after the settings does not blame them. -/
lemma perform_ne_settings (e : SettingsError) (loads : (settingsOf host line).run w = (.ok s, w)) :
    ((perform host line).run w).1 ≠ .failed (.settings e) := by
  cases read : requestIn w line.errand with
  | error failure =>
    rw [run_perform_error loads read]
    rintro ⟨⟩
    exact requestIn_ne_settings _ e read
  | ok r =>
    obtain ⟨answer, v, served⟩ : ∃ answer v, (serve host s r).run w = (answer, v) := ⟨_, _, rfl⟩
    rw [run_perform_ok loads read served]
    cases answer <;> nofun

/-- A run is refused for a fault of its settings. -/
def Refused (w : Workspace) (line : Line) (fault : SettingsFault) : Prop :=
  ((perform host line).run w).1 = .failed (.settings (.invalid fault))

/-- A command whose settings are refused does nothing else. -/
lemma run_perform_refused (finds : w.Finds line.config s) (refused : line.judged s = .error fault) :
    (perform host line).run w = (.failed (.settings (.invalid fault)), w) := by
  have stopped := run_settingsOf_finds finds
  rw [refused] at stopped
  rw [perform, StateM.run_bind_of_run stopped]
  rfl

/-- A command is refused for the fault its settings are judged by. -/
lemma refused_iff (finds : w.Finds line.config s) :
    Refused w line fault ↔ line.judged s = .error fault := by
  cases judged : line.judged s with
  | error fault' =>
    rw [Refused, run_perform_refused finds judged]
    simp
  | ok s' =>
    have loads := run_settingsOf_finds finds
    rw [judged] at loads
    simp only [Refused, perform_ne_settings _ loads, reduceCtorEq]

/-- Settings refuse a run if they cannot work as they are found, or if they cannot work with what
the command line puts in their place. So they do whenever the run would be left with a fault, and
also where the options mend every fault that was found; a run that is not refused goes on with what
the options have put in place, and one that is refused changes nothing. -/
theorem settings_refused (finds : w.Finds line.config s) :
    (∀ fault, Refused w line fault ↔ s.validate = .error fault
        ∨ s.validate = .ok () ∧ (line.override s).validate = .error fault)
      ∧ ((∃ fault, (line.override s).Has fault) → ∃ fault, Refused w line fault)
      ∧ ((∃ fault, Refused w line fault) ∧ (∀ fault, ¬ (line.override s).Has fault)
        ↔ (∃ fault, s.Has fault) ∧ (∀ fault, s.Has fault → line.Mends fault)
          ∧ line.retries ≠ some 0)
      ∧ ((∀ fault, ¬ Refused w line fault) →
        (settingsOf host line).run w = (.ok (line.override s), w))
      ∧ ∀ fault arguments, Refused w line fault →
        Line.parse (w.environment.lookup "SCHEMAREG_CONFIG") (w.environment.lookup "SCHEMAREG_DB")
          arguments = .ok line →
        (run host arguments).run w = ((Ending.failed (.settings (.invalid fault))).exit, w) := by
  have rule (fault : SettingsFault) : Refused w line fault ↔ s.validate = .error fault
      ∨ s.validate = .ok () ∧ (line.override s).validate = .error fault :=
    (refused_iff finds).trans judged_eq_error
  have refused : (∃ fault, Refused w line fault)
      ↔ (∃ fault, s.Has fault) ∨ ∃ fault, (line.override s).Has fault := by
    simp only [refused_iff finds, exists_judged_error]
  refine ⟨rule, fun left => refused.mpr (.inr left), ?_, fun accepted => ?_, ?_⟩
  -- options do not help a file that they would mend
  · rw [refused, ← override_clear]
    constructor
    · rintro ⟨found | ⟨fault, left⟩, clear⟩
      · exact ⟨found, clear⟩
      · exact (clear fault left).elim
    · rintro ⟨found, clear⟩
      exact ⟨.inl found, clear⟩
  · have loads := run_settingsOf_finds finds
    cases judged : line.judged s with
    | error fault => exact (accepted fault ((refused_iff finds).mpr judged)).elim
    | ok s' =>
      rw [judged, judged_eq_ok judged] at loads
      exact loads
  · intro fault arguments refused parsed
    exact run_of_perform parsed (run_perform_refused finds ((refused_iff finds).mp refused))

/-- A machine with a file of settings. -/
def settingsFile (text : String) : Workspace :=
  ({} : Workspace).addFile "/settings.toml" text

/-- A workspace with one settings file finds what it says. -/
lemma settingsFile_finds {text : String} (parsed : Settings.ofToml? text = some s) :
    (settingsFile text).Finds (some "/settings.toml") s :=
  .file rfl rfl parsed

/-- The settings of a file can work, and an option takes the attempts away. -/
theorem settings_refused_zero :
    let w := settingsFile "retries = 2\n"
    let line : Line := ⟨some "/settings.toml", none, some 0, .text,
      .request (.createOrg (some "acme"))⟩
    let arguments := ["--config", "/settings.toml", "--retries", "0", "create-org", "acme"]
    w.Finds line.config { retries := 2 } ∧ Line.parse none none arguments = .ok line
      ∧ Refused w line .noAttempts
      ∧ (run host arguments).run w
        = (⟨1, "", "error: invalid config: retries must be at least 1\n"⟩, w) := by
  intro w line arguments
  have finds : w.Finds line.config { retries := 2 } :=
    settingsFile_finds (by decide +kernel)
  have parsed : Line.parse none none arguments = .ok line := by
    rw [← Except.toOption_eq_some]
    decide +kernel
  obtain ⟨rule, -, -, -, ends⟩ := settings_refused finds
  have refused : Refused w line .noAttempts := (rule _).mpr (.inr ⟨rfl, rfl⟩)
  exact ⟨finds, parsed, refused, ends _ _ refused parsed⟩

/-- Options that mend all faults of a file do not save the run: neither the number of attempts nor
the database that the command line names is looked at. -/
theorem override_ignored :
    (∃ line s, Line.parse none none
          ["--config", "/settings.toml", "--db", "/registry.db", "create-org", "acme"] = .ok line
        ∧ (settingsFile "[store]\nbackend = \"sqlite\"\n").Finds line.config s
        ∧ (∀ fault, ¬ (line.override s).Has fault)
        ∧ Refused (settingsFile "[store]\nbackend = \"sqlite\"\n") line .noDatabasePath)
      ∧ ∃ line s, Line.parse none none
          ["--config", "/settings.toml", "--retries", "3", "create-org", "acme"] = .ok line
        ∧ (settingsFile "retries = 0\n").Finds line.config s
        ∧ (∀ fault, ¬ (line.override s).Has fault)
        ∧ Refused (settingsFile "retries = 0\n") line .noAttempts := by
  constructor
  · let line : Line := ⟨some "/settings.toml", some "/registry.db", none, .text,
      .request (.createOrg (some "acme"))⟩
    have finds : (settingsFile "[store]\nbackend = \"sqlite\"\n").Finds line.config
        { store := { backend := .sqlite } } :=
      settingsFile_finds (by decide +kernel)
    refine ⟨line, _, ?_, finds, Settings.validate_eq_ok.mp rfl, (refused_iff finds).mpr rfl⟩
    rw [← Except.toOption_eq_some]
    decide +kernel
  · let line : Line := ⟨some "/settings.toml", none, some 3, .text,
      .request (.createOrg (some "acme"))⟩
    have finds : (settingsFile "retries = 0\n").Finds line.config { retries := 0 } :=
      settingsFile_finds (by decide +kernel)
    refine ⟨line, _, ?_, finds, Settings.validate_eq_ok.mp rfl, (refused_iff finds).mpr rfl⟩
    rw [← Except.toOption_eq_some]
    decide +kernel

end MetricRegistry.Command
