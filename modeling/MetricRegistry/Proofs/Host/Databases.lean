import MetricRegistry.Proofs.Host.Files
import MetricRegistry.Proofs.Registry.Alone

/-!
# Databases in files

What becomes of a workspace when the file of a database appears in it. A workspace `Extends` another
where it is that one or has a database with tables besides; the same texts can be read in it
(`readText_setDatabase`), and the name of the database leads to the same place
(`databasePath?_setDatabase`). Where a file is `Fresh` at first, `Fresh.openDatabase` opens a table
of it again and again and finds the rows that were left there, and `run_tableStore` says that a
program does on the table what it does on the cells that the table holds.
-/

namespace MetricRegistry

/-! ## Tables -/

namespace Database

/-- The rows of another table stay. -/
lemma table_setTable_of_ne {name other : String} (ne : fold other ≠ fold name) (db : Database)
    (t : Table) : (db.setTable name t).table other = db.table other := by
  have skip : (fold other == fold name) = false := by simpa using ne
  induction db with
  | nil => simp [setTable, table, List.lookup_cons, skip]
  | cons entry db ih =>
    obtain ⟨n, u⟩ := entry
    simp only [table] at ih
    by_cases here : n = fold name
    · simp [setTable, table, here, List.lookup_cons, skip]
    · simp only [setTable, table, here, beq_iff_eq, if_false, List.lookup_cons]
      split
      · rfl
      · exact ih

/-- After its rows were replaced there is a table. -/
lemma setTable_ne_nil (db : Database) (name : String) (t : Table) : db.setTable name t ≠ [] := by
  cases db with
  | nil => simp [setTable]
  | cons entry db =>
    simp only [setTable]
    split <;> simp

/-- A table is the same whatever the case of the letters of its name. -/
lemma table_congr {name other : String} (same : fold other = fold name) (db : Database) :
    db.table other = db.table name := by
  rw [table, table, same]

end Database

namespace Workspace

variable {w : Workspace} {path : Path} {f g : DatabaseFile}

/-! ## What is under a path -/

/-- The database under a path, without tables if there is none. -/
def databaseAt (w : Workspace) (path : Path) : DatabaseFile :=
  (w.databases.lookup path).getD {}

/-- A database that was set is looked up. -/
lemma lookup_setDatabase (w : Workspace) (path : Path) (f : DatabaseFile) :
    (w.setDatabase path f).databases.lookup path = some f := by
  simp [setDatabase]

/-- A database under another path stays. -/
lemma lookup_setDatabase_of_ne {other : Path} (ne : other ≠ path) :
    (w.setDatabase path f).databases.lookup other = w.databases.lookup other := by
  have skip : (other == path) = false := by simpa using ne
  simp only [setDatabase, List.lookup_cons, skip]
  induction w.databases with
  | nil => rfl
  | cons entry rest ih =>
    obtain ⟨p, g⟩ := entry
    by_cases here : p = path
    · simp [here, List.lookup_cons, skip, ih]
    · simp only [List.filter_cons, bne_iff_ne, ne_eq, here, not_false_eq_true, if_true,
        List.lookup_cons, ih]

/-- A database that was set is found. -/
@[simp]
lemma databaseAt_setDatabase (w : Workspace) (path : Path) (f : DatabaseFile) :
    (w.setDatabase path f).databaseAt path = f := by
  rw [databaseAt, lookup_setDatabase, Option.getD_some]

/-- Of two databases that are set under one path the later stays. -/
@[simp]
lemma setDatabase_setDatabase (w : Workspace) (path : Path) (f g : DatabaseFile) :
    (w.setDatabase path f).setDatabase path g = w.setDatabase path g := by
  simp [setDatabase]

/-- A database that was set is seen where there is no directory. -/
lemma lookAt_setDatabase (free : w.isDirectory path = false) :
    (w.setDatabase path f).lookAt path = .database f := by
  have same : (w.setDatabase path f).isDirectory path = false := free
  simp [lookAt, same, lookup_setDatabase]

/-- Under another path the same is seen. -/
lemma lookAt_setDatabase_of_ne {other : Path} (ne : other ≠ path) :
    (w.setDatabase path f).lookAt other = w.lookAt other := by
  unfold lookAt
  rw [lookup_setDatabase_of_ne ne]
  rfl

/-- A directory stays one when a database is set. -/
lemma lookAt_directory {other : Path} (path : Path) (f : DatabaseFile)
    (directory : w.lookAt other = .directory) :
    (w.setDatabase path f).lookAt other = .directory := by
  rw [lookAt_eq_directory] at directory ⊢
  exact directory

/-- Where nothing is, there is no directory. -/
lemma isDirectory_eq_false {reason : ReadFault} (free : w.lookAt path = .nothing reason) :
    w.isDirectory path = false := by
  by_contra directory
  rw [Bool.not_eq_false] at directory
  rw [lookAt_eq_directory.mpr directory] at free
  cases free

/-- What is found is the same, or a database stands where nothing was, or in the way to it. -/
def Found.Reveals (f : DatabaseFile) (before after : Found) : Prop :=
  after = before
    ∨ (∃ reason, before = .nothing reason)
      ∧ (after = .database f ∨ ∃ reason, after = .nothing reason)

/-- Names that are followed beside a database lead to the same, to it or to nothing. -/
lemma follow_setDatabase (free : w.lookAt path = .nothing .notFound) (names : List (List UInt8))
    (start : Path) :
    Found.Reveals f (w.follow start names) ((w.setDatabase path f).follow start names) := by
  have there := lookAt_setDatabase (f := f) (isDirectory_eq_false free)
  induction names generalizing start with
  | nil =>
    by_cases here : start = path
    · subst here
      exact .inr ⟨⟨_, free⟩, .inl there⟩
    · exact .inl (lookAt_setDatabase_of_ne here)
  | cons name names ih =>
    by_cases here : start = path
    · subst here
      refine .inr ⟨⟨.notFound, by simp [follow, free]⟩, .inr ⟨.notDirectory, ?_⟩⟩
      simp [follow, there]
    · simp only [follow, lookAt_setDatabase_of_ne here]
      split
      · split
        · exact .inl rfl
        · exact ih _
      · exact .inl rfl
      · exact .inl rfl

/-- A text beside a database spells a way to the same, to it or to nothing. -/
lemma look_setDatabase (free : w.lookAt path = .nothing .notFound) (text : String) :
    Found.Reveals f (w.look text) ((w.setDatabase path f).look text) := by
  unfold look
  dsimp only
  split
  · exact .inl rfl
  split
  · exact .inl rfl
  exact follow_setDatabase free _ _

/-- A database with tables spells no text, so the same texts can be read beside it. -/
lemma readText_setDatabase (free : w.lookAt path = .nothing .notFound) (filled : f.tables ≠ [])
    (text : String) :
    ((w.setDatabase path f).readText text).toOption = (w.readText text).toOption := by
  unfold readText
  rcases look_setDatabase (f := f) free text with
    same | ⟨⟨reason, missing⟩, found | ⟨reason', missing'⟩⟩
  · rw [same]
  · have bytes : f.tables.isEmpty = false := List.isEmpty_eq_false_iff.mpr filled
    simp [missing, found, bytes, Except.toOption]
  · rw [missing, missing']
    rfl

/-! ## The way to a database -/

/-- Names that lead to a directory start at one. -/
lemma lookAt_of_follow {start : Path} {names : List (List UInt8)}
    (leads : w.follow start names = .directory) : w.lookAt start = .directory := by
  cases names with
  | nil => exact leads
  | cons name names =>
    unfold follow at leads
    split at leads
    case h_1 directory => exact directory
    case h_2 => cases leads
    case h_3 => cases leads

/-- A way through directories stays the same when a database appears. -/
lemma way_setDatabase {start : Path} {names : List (List UInt8)} (path : Path) (f : DatabaseFile)
    (leads : w.follow start names = .directory) :
    names.foldlM (w.setDatabase path f).databaseStep start = names.foldlM w.databaseStep start
      ∧ ∀ last, names.foldlM w.databaseStep start = some last → w.lookAt last = .directory := by
  induction names generalizing start with
  | nil => exact ⟨rfl, fun last eq => by cases eq; exact leads⟩
  | cons name names ih =>
    have here := lookAt_of_follow leads
    simp only [follow, here] at leads
    split at leads
    case isTrue => cases leads
    case isFalse fits =>
    have next := lookAt_of_follow leads
    have here' := lookAt_directory path f here
    have next' := lookAt_directory path f next
    have step : w.databaseStep start name
        = if (start.step name).length ≤ start.length then some (start.step name)
          else if longestDatabaseWay < (start.step name).byteCount then none
          else some (start.step name) := by
      simp [databaseStep, follow, here, fits, next]
    have step' : (w.setDatabase path f).databaseStep start name = w.databaseStep start name := by
      rw [step]
      simp [databaseStep, follow, here', fits, next']
    rw [List.foldlM_cons, List.foldlM_cons, step']
    cases taken : w.databaseStep start name with
    | none => exact ⟨rfl, by simp⟩
    | some p =>
      have there : p = start.step name := by
        rw [step] at taken
        grind
      exact ih (there ▸ leads)

/-- The last step of the way leads to where the database appears. -/
lemma databaseStep_setDatabase {last : Path} {name : List UInt8}
    (directory : w.lookAt last = .directory) (free : w.lookAt path = .nothing .notFound)
    (place : w.databaseStep last name = some path) :
    (w.setDatabase path f).databaseStep last name = some path := by
  have there := lookAt_setDatabase (f := f) (isDirectory_eq_false free)
  have eq : last.step name = path := by
    unfold databaseStep at place
    grind
  unfold databaseStep at place ⊢
  simp only [eq, follow, directory, lookAt_directory path f directory, there] at place ⊢
  by_cases short : path.length ≤ last.length
  · simp [short]
  by_cases far : longestDatabaseWay < path.byteCount
  · simp [short, far] at place
  by_cases long : Path.longestName < name.length
  · simp [short, far, long] at place
  · simp [short, far, long]

/-- The name of a database leads to it when it is there as it did before. -/
lemma databasePath?_setDatabase {bytes name : List UInt8} {parents : List (List UInt8)}
    (named : Path.names w.directory bytes = parents ++ [name])
    (leads : w.follow [] parents = .directory) (place : w.databasePath? bytes = some path)
    (free : w.lookAt path = .nothing .notFound) :
    (w.setDatabase path f).databasePath? bytes = some path := by
  obtain ⟨same, ends⟩ := way_setDatabase path f leads
  have named' : Path.names (w.setDatabase path f).directory bytes = parents ++ [name] := named
  unfold databasePath? at place ⊢
  rw [named, List.foldlM_append] at place
  rw [named', List.foldlM_append, same]
  cases walked : parents.foldlM w.databaseStep [] with
  | none => simp [walked] at place
  | some last =>
    cases taken : w.databaseStep last name with
    | none => simp [walked, taken] at place
    | some next =>
      have next_eq : next = path := by
        simp only [walked, taken, List.foldlM_cons, List.foldlM_nil, Option.bind_eq_bind,
          Option.bind_some, Option.pure_def] at place
        grind
      subst next_eq
      have taken' := databaseStep_setDatabase (f := f) (ends last walked) free taken
      simpa [walked, taken, taken'] using place

end Workspace

/-! ## Files that are put to use -/

namespace DatabaseFile

variable {l : Location} {table : String} {f f' : DatabaseFile}

/-- A file that can be put to use: it asks for no log, unless it is opened with one. -/
structure Usable (l : Location) (table : String) (f : DatabaseFile) : Prop where
  keyed : (f.tables.table table).Keyed
  unmarked : f.logged = true → l.journal = .log

/-- A file as it is once it was put to use. -/
def opened (l : Location) (table : String) (f : DatabaseFile) : DatabaseFile :=
  ⟨f.tables.setTable table (f.tables.table table), decide (l.journal = .log)⟩

/-- A file without anything can be put to use. -/
lemma usable_empty : Usable l table {} :=
  ⟨Table.keyed_nil, nofun⟩

/-- A file that was put to use can be put to use again. -/
lemma Usable.opened (usable : f.Usable l table) : (f.opened l table).Usable l table := by
  refine ⟨?_, fun marked => by simpa [DatabaseFile.opened] using marked⟩
  rw [DatabaseFile.opened, Database.table_setTable]
  exact usable.keyed

/-- A file that can be put to use is made ready without a fault. -/
lemma Usable.ready_eq (usable : f.Usable l table) (writable : l.writable = true)
    (named : Database.validateTable table = .ok ()) (free : Database.isReserved table = false) :
    f.ready l table = (.ok (), f.opened l table) := by
  obtain ⟨tables, logged⟩ := f
  obtain ⟨file, mode, journal⟩ := l
  have unmarked := usable.unmarked
  have made : Location.openTable ⟨file, mode, journal⟩ table tables
      = .ok (tables.setTable table (tables.table table)) := by
    simp [Location.openTable, Database.openTable, named, free, writable]
  cases journal with
  | frozen => simp [Location.writable] at writable
  | rollback =>
    cases logged with
    | true => cases unmarked rfl
    | false => simp [ready, named, journaled?, made, DatabaseFile.opened]
  | log => simp [ready, named, journaled?, writable, made, DatabaseFile.opened]

end DatabaseFile

namespace Workspace

/-! ## Opening and using a table -/

variable {w v : Workspace} {path : Path} {l : Location} {table : String} {f : DatabaseFile}

/-- A file for a database can be made at a location: nothing is there, in a directory to which the
way leads through directories, and a name is left for the journal. -/
structure Fresh (w : Workspace) (path : Path) (l : Location) : Prop where
  creates : l.mode = .create
  thawed : l.journal ≠ .frozen
  place : ∃ bytes parents name, l.file = some bytes ∧ w.databasePath? bytes = some path
    ∧ Path.names w.directory bytes = parents ++ [name] ∧ w.follow [] parents = .directory
  home : w.isDirectory path.dropLast = true
  free : w.lookAt path = .nothing .notFound
  short : (path.getLast?.getD []).length + journalSuffix ≤ Path.longestName

/-- A workspace as it was, or with a database that has tables. -/
inductive Extends (w : Workspace) (path : Path) : DatabaseFile → Workspace → Prop where
  | absent :
    Extends w path {} w
  | present {file : DatabaseFile} :
    file.tables ≠ [] →
    Extends w path file (w.setDatabase path file)

/-- Where a file can be made it can be changed. -/
lemma Fresh.writable (fresh : w.Fresh path l) : l.writable = true := by
  simp [Location.writable, fresh.creates, fresh.thawed]

/-- A workspace that extends another has the database that it is extended with. -/
lemma Extends.databaseAt (ext : w.Extends path f v) (free : w.lookAt path = .nothing .notFound) :
    v.databaseAt path = f := by
  cases ext with
  | absent =>
    have missing : w.databases.lookup path = none := by
      cases there : w.databases.lookup path with
      | none => rfl
      | some file => simp [lookAt, isDirectory_eq_false free, there] at free
    rw [Workspace.databaseAt, missing]
    rfl
  | present => exact databaseAt_setDatabase w path f

/-- A database is nothing to the environment. -/
lemma Extends.environment (ext : w.Extends path f v) : v.environment = w.environment := by
  cases ext <;> rfl

/-! What stands on the standard input is nothing to the files. -/

/-- A workspace with another text on the standard input. -/
def withInput (w : Workspace) (input : String) : Workspace :=
  { w with input := input }

/-- Names are followed alike whatever stands on the standard input. -/
lemma follow_withInput (input : String) (start : Path) (names : List (List UInt8)) :
    (w.withInput input).follow start names = w.follow start names := by
  induction names generalizing start with
  | nil => rfl
  | cons name names ih =>
    simp only [follow, ih]
    rfl

/-- Whether a file can be made does not depend on the standard input. -/
lemma Fresh.withInput (fresh : w.Fresh path l) (input : String) :
    (w.withInput input).Fresh path l := by
  obtain ⟨bytes, parents, name, file, place, names, leads⟩ := fresh.place
  have step : (w.withInput input).databaseStep = w.databaseStep := by
    funext start name
    simp only [databaseStep, follow_withInput]
  refine ⟨fresh.creates, fresh.thawed, ⟨bytes, parents, name, file, ?_, names, ?_⟩, fresh.home,
    fresh.free, fresh.short⟩
  · rw [databasePath?, step]
    exact place
  · rw [follow_withInput]
    exact leads

/-- Another text on the standard input changes nothing about an extension. -/
lemma Extends.withInput {input : String} (ext : (w.withInput input).Extends path f v)
    (input' : String) : (w.withInput input').Extends path f (v.withInput input') := by
  cases ext with
  | absent => exact .absent
  | present filled => exact .present filled

/-- A database is made where there is none, and put to use. -/
lemma Fresh.openFile (fresh : w.Fresh path l) (ext : w.Extends path f v) (usable : f.Usable l table)
    (named : Database.validateTable table = .ok ()) (free : Database.isReserved table = false) :
    v.openFile path l table = (.ok (), w.setDatabase path (f.opened l table)) := by
  have fits := Nat.not_lt.mpr fresh.short
  have ready := usable.ready_eq fresh.writable named free
  unfold Workspace.openFile
  cases ext with
  | absent =>
    simp [fresh.free, fresh.creates, fresh.home, fits, readyDatabase, ready]
  | present filled =>
    have there := lookAt_setDatabase (f := f) (isDirectory_eq_false fresh.free)
    simp [there, fits, readyDatabase, ready]

/-- A table is opened in a database that is there, or is made with it. -/
lemma Fresh.openDatabase (fresh : w.Fresh path l) (ext : w.Extends path f v)
    (usable : f.Usable l table) (named : Database.validateTable table = .ok ())
    (free : Database.isReserved table = false) :
    (Workspace.openDatabase l table).run v
      = (.ok (tableStore (databaseAt · path) (setDatabase path) l table),
        w.setDatabase path (f.opened l table)) := by
  obtain ⟨bytes, parents, name, file, place, names, leads⟩ := fresh.place
  have place' : v.databasePath? bytes = some path := by
    cases ext with
    | absent => exact place
    | present => exact databasePath?_setDatabase names leads place fresh.free
  have found : (get : StateM Workspace Workspace).run v = (v, v) := rfl
  have opened : (modifyGet (Workspace.openFile path l table)
      : StateM Workspace (Except RegistryError Unit)).run v
      = (.ok (), w.setDatabase path (f.opened l table)) :=
    fresh.openFile ext usable named free
  unfold Workspace.openDatabase
  rw [file]
  refine (StateM.run_bind_of_run found).trans ?_
  rw [place']
  exact (StateM.run_bind_of_run opened).trans rfl

/-- A program does on a table of a database what it does on cells. -/
lemma run_tableStore {α : Type} (p : Program α) (writable : l.writable = true)
    (usable : f.Usable l table) :
    ∃ a f', (p.run (tableStore (databaseAt · path) (setDatabase path) l table)).run
        (w.setDatabase path f) = (a, w.setDatabase path f')
      ∧ f'.Usable l table ∧ (f.tables ≠ [] → f'.tables ≠ [])
      ∧ (∀ other, Database.fold other ≠ Database.fold table →
        f'.tables.table other = f.tables.table other)
      ∧ p.alone true (f.tables.table table).cells = (a, (f'.tables.table table).cells) := by
  induction p generalizing f with
  | done a => exact ⟨a, f, rfl, usable, id, fun _ _ => rfl, rfl⟩
  | read key resume ih =>
    have reply : ((tableStore (databaseAt · path) (setDatabase path) l table).read key).run
        (w.setDatabase path f) = ((f.tables.table table).cells.read key, w.setDatabase path f) := by
      rw [← Table.read_eq]
      show (((w.setDatabase path f).databaseAt path).tables.table table |>.read key, _) = _
      rw [databaseAt_setDatabase]
    obtain ⟨a, f', run, rest⟩ := ih ((f.tables.table table).cells.read key) usable
    exact ⟨a, f', (StateM.run_bind_of_run reply).trans run, rest⟩
  | write key document expected resume ih =>
    -- a refused write leaves the file, and any other leaves a table with unique keys
    rcases usable.keyed.write_eq key document expected with
      ⟨outcome, t', written, keyed', swapped⟩ | ⟨e, refused, swapped⟩
    · have stored : l.write table key document expected f.tables
          = .ok (outcome, f.tables.setTable table t') := by
        simp [Location.write, written, writable]
      have reply : ((tableStore (databaseAt · path) (setDatabase path) l table).write key document
          expected).run (w.setDatabase path f)
          = (.ok outcome, w.setDatabase path { f with tables := f.tables.setTable table t' }) := by
        simp [tableStore, stored]
        rfl
      have usable' : DatabaseFile.Usable l table { f with tables := f.tables.setTable table t' } :=
        ⟨by rwa [Database.table_setTable], usable.unmarked⟩
      obtain ⟨a, f', run, usable'', filled, others, alone⟩ := ih (.ok outcome) usable'
      refine ⟨a, f', (StateM.run_bind_of_run reply).trans run, usable'',
        fun _ => filled (Database.setTable_ne_nil _ _ _), fun other ne => ?_, ?_⟩
      · rw [others other ne, Database.table_setTable_of_ne ne]
      · rw [Database.table_setTable] at alone
        rw [Program.alone_write, swapped, alone]
    · have failed : l.write table key document expected f.tables = .error e := by
        simp [Location.write, refused, bind, Except.bind]
      have reply : ((tableStore (databaseAt · path) (setDatabase path) l table).write key document
          expected).run (w.setDatabase path f) = (.error e, w.setDatabase path f) := by
        simp [tableStore, failed]
        rfl
      obtain ⟨a, f', run, usable', filled, others, alone⟩ := ih (.error e) usable
      refine ⟨a, f', (StateM.run_bind_of_run reply).trans run, usable', filled, others, ?_⟩
      rw [Program.alone_write, swapped, alone]

end Workspace

end MetricRegistry
