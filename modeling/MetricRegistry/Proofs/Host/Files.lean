import MetricRegistry.Host.Workspace
import MetricRegistry.Proofs.Text.Numerals

/-!
# The texts of files

The name of a file is followed through directories to what is under some path, and a text is read if
there is a file. `Contains` says so apart from the way in which names are followed, and
`readText_eq_ok` says that the texts that it allows are those that are read.
-/

namespace MetricRegistry.Workspace

/-- Names lead from one path to another: each is looked up in a directory and is not too long. -/
inductive Leads (w : Workspace) : Path → List (List UInt8) → Path → Prop where
  | here {path} :
    Leads w path [] path
  | step {path last name names} :
    w.isDirectory path = true →
    name.length ≤ Path.longestName →
    Leads w (path.step name) names last →
    Leads w path (name :: names) last

/-- There is a text under a path: that of a file, or the empty one of a database to which nothing
was ever written. -/
inductive Holds (w : Workspace) (path : Path) : String → Prop where
  | file {text} :
    w.isDirectory path = false →
    w.databases.lookup path = none →
    w.files.lookup path = some text →
    Holds w path text
  | blank :
    w.isDirectory path = false →
    w.databases.lookup path = some ⟨[], false⟩ →
    Holds w path ""

/-- A file has a name that leads to a text. -/
inductive Contains (w : Workspace) (file : String) : String → Prop where
  | intro {path text} :
    file ≠ "" →
    (Text.utf8 file).length ≤ Path.longest →
    w.Leads [] (Path.names w.directory (Text.utf8 file)) path →
    w.Holds path text →
    Contains w file text

variable {w : Workspace} {path : Path}

/-- There is a directory under a path if it is one. -/
lemma lookAt_eq_directory : w.lookAt path = .directory ↔ w.isDirectory path = true := by
  unfold lookAt
  split
  case isTrue directory => simp [directory]
  case isFalse other => split <;> simp [other]

/-- There is a database under a path if it is one and no directory. -/
lemma lookAt_eq_database {f : DatabaseFile} : w.lookAt path = .database f
    ↔ w.isDirectory path = false ∧ w.databases.lookup path = some f := by
  unfold lookAt
  split
  case isTrue directory => simp [directory]
  case isFalse other =>
    cases database : w.databases.lookup path <;> cases text : w.files.lookup path <;>
      simp [other]

/-- There is a file under a path if it is one and neither a directory nor a database. -/
lemma lookAt_eq_text {text : String} : w.lookAt path = .text text
    ↔ w.isDirectory path = false ∧ w.databases.lookup path = none
      ∧ w.files.lookup path = some text := by
  unfold lookAt
  split
  case isTrue directory => simp [directory]
  case isFalse other =>
    cases database : w.databases.lookup path <;> cases text : w.files.lookup path <;>
      simp [other]

/-- What names are followed to is what they lead to. -/
lemma follow_eq {names : List (List UInt8)} {found : Found}
    (there : ∀ reason, found ≠ .nothing reason) :
    w.follow path names = found ↔ ∃ last, w.Leads path names last ∧ w.lookAt last = found := by
  induction names generalizing path with
  | nil =>
    constructor
    · intro eq
      exact ⟨path, .here, eq⟩
    · rintro ⟨_, ⟨⟩, eq⟩
      exact eq
  | cons name names ih =>
    rw [follow]
    constructor
    · intro eq
      split at eq
      case h_1 directory =>
        split at eq
        case isTrue => exact (there _ eq.symm).elim
        case isFalse short =>
          obtain ⟨last, leads, eq⟩ := ih.mp eq
          exact ⟨last, .step (lookAt_eq_directory.mp directory) (Nat.le_of_not_lt short) leads, eq⟩
      case h_2 => exact (there _ eq.symm).elim
      case h_3 => exact (there _ eq.symm).elim
    · rintro ⟨last, leads, eq⟩
      cases leads with
      | step directory short leads =>
        rw [lookAt_eq_directory.mpr directory]
        dsimp only
        rw [if_neg (Nat.not_lt.mpr short)]
        exact ih.mpr ⟨last, leads, eq⟩

/-- What the name of a file leads to is what is found. -/
lemma look_eq {file : String} {found : Found} (there : ∀ reason, found ≠ .nothing reason) :
    w.look file = found ↔ file ≠ "" ∧ (Text.utf8 file).length ≤ Path.longest
      ∧ ∃ path, w.Leads [] (Path.names w.directory (Text.utf8 file)) path
        ∧ w.lookAt path = found := by
  have empty : (Text.utf8 file).isEmpty = true ↔ file = "" := by
    rw [List.isEmpty_iff, ← Text.utf8_injective.eq_iff]
    rfl
  rw [look, ← follow_eq there]
  split
  case isTrue nameless =>
    have none : (.nothing .notFound : Found) ≠ found := fun eq => there _ eq.symm
    simp [none, empty.mp nameless]
  case isFalse named =>
    have named : file ≠ "" := mt empty.mpr named
    split
    case isTrue long =>
      have none : (.nothing .nameTooLong : Found) ≠ found := fun eq => there _ eq.symm
      simp [none, Nat.not_le.mpr long]
    case isFalse short => simp [named, Nat.le_of_not_lt short]

/-- The text that is read from a file is the one that it contains. -/
lemma readText_eq_ok {file text : String} : w.readText file = .ok text ↔ w.Contains file text := by
  constructor
  · intro read
    unfold readText at read
    split at read
    case h_1 => cases read
    case h_2 found =>
      cases read
      obtain ⟨named, short, path, leads, found⟩ := (look_eq (by simp)).mp found
      obtain ⟨other, unfiled, there⟩ := lookAt_eq_text.mp found
      exact .intro named short leads (.file other unfiled there)
    -- of the databases only one without tables and without a log can be read as text
    case h_3 f found =>
      obtain ⟨named, short, path, leads, found⟩ := (look_eq (by simp)).mp found
      obtain ⟨other, there⟩ := lookAt_eq_database.mp found
      split at read
      case isTrue blank =>
        cases read
        obtain ⟨tables, logged⟩ := f
        simp only [Bool.and_eq_true, List.isEmpty_iff, Bool.not_eq_true'] at blank
        obtain ⟨rfl, rfl⟩ := blank
        exact .intro named short leads (.blank other there)
      case isFalse => cases read
    case h_4 => cases read
  · rintro ⟨named, short, leads, holds⟩
    cases holds with
    | file other unfiled there =>
      have found := (look_eq (by simp)).mpr
        ⟨named, short, _, leads, lookAt_eq_text.mpr ⟨other, unfiled, there⟩⟩
      rw [readText, found]
    | blank other there =>
      have found := (look_eq (by simp)).mpr
        ⟨named, short, _, leads, lookAt_eq_database.mpr ⟨other, there⟩⟩
      rw [readText, found]
      rfl

end MetricRegistry.Workspace
