import MetricRegistry.Host.Basic
import MetricRegistry.Store.Memory

/-!
# A machine as a value

A `Workspace` holds the directories, the files, the databases and the environment that runs see,
and what they leave behind.  `Workspace.host` is the host that it makes.
-/

namespace MetricRegistry

/-- The names that lead from the root to a file, in bytes. -/
abbrev Path := List (List UInt8)

namespace Path

open Ascii

/-- Follows one name of a path. -/
def step (path : Path) (name : List UInt8) : Path :=
  if name == [dot, dot] then path.dropLast
  else if name == [] || name == [dot] then path
  else path ++ [name]

/-- The names in the bytes of a text, in front of them those of a directory if the text does not
start at the root. -/
def names (directory : Path) (bytes : List UInt8) : List (List UInt8) :=
  (if bytes.head? == some slash then [] else directory) ++ bytes.splitOn slash

/-- The path that a text spells. -/
def ofText (directory : Path) (text : String) : Path :=
  (names directory (Text.utf8 text)).foldl step []

/-- The number of bytes of a path, with a slash before each name. -/
def byteCount (path : Path) : Nat :=
  path.foldl (fun n name => n + name.length + 1) 0

/-- The number of bytes that a name may have. -/
def longestName : Nat := 255

/-- The number of bytes that the text of a path may have. -/
def longest : Nat := 4095

end Path

/-- A file with a database. -/
structure DatabaseFile where
  tables : Database := []
  /-- Whether the file asks for a log. -/
  logged : Bool := false

namespace DatabaseFile

/-- The file as a journal leaves it.  Only a log can be used with a file that asks for one, and a
file starts to ask for one when it is opened with a log and may be changed. -/
def journaled? (l : Location) (f : DatabaseFile) : Option DatabaseFile :=
  match l.journal with
  | .frozen => some f
  | .rollback => if f.logged then none else some f
  | .log => if f.logged || l.writable then some { f with logged := true } else none

/-- Makes a file ready for the documents in a table.  What was changed before a fault stays. -/
def ready (l : Location) (table : String) (f : DatabaseFile) :
    Except RegistryError Unit × DatabaseFile :=
  match Database.validateTable table, f.journaled? l with
  | .error e, _ => (.error e, f)
  | .ok (), none => (.error .storage, f)
  | .ok (), some f =>
    match l.openTable table f.tables with
    | .error e => (.error e, f)
    | .ok tables => (.ok (), { f with tables })

end DatabaseFile

/-- What runs see of a machine and leave behind on it. -/
structure Workspace where
  environment : List (String × String) := []
  input : String := ""
  /-- The directory at which paths start that do not start at the root. -/
  directory : Path := []
  directories : List Path := []
  files : List (Path × String) := []
  databases : List (Path × DatabaseFile) := []
  /-- The documents in the memory of the present run. -/
  documents : Documents := []
  /-- The database of the present run that is in no file. -/
  unfiled : DatabaseFile := {}

namespace Workspace

/-- What is under a path. -/
inductive Found where
  | directory
  | text (text : String)
  | database (file : DatabaseFile)
  | nothing (reason : ReadFault)

/-- Whether there is a directory under a path. -/
def isDirectory (w : Workspace) (path : Path) : Bool :=
  path.isEmpty || w.directories.contains path

/-- Looks under a path. -/
def lookAt (w : Workspace) (path : Path) : Found :=
  if w.isDirectory path then .directory
  else
    match w.databases.lookup path, w.files.lookup path with
    | some f, _ => .database f
    | none, some text => .text text
    | none, none => .nothing .notFound

/-- Follows names from a path.  All but the last have to lead to directories. -/
def follow (w : Workspace) : Path → List (List UInt8) → Found
  | path, [] => w.lookAt path
  | path, name :: names =>
    match w.lookAt path with
    | .directory =>
      if Path.longestName < name.length then .nothing .nameTooLong
      else w.follow (path.step name) names
    | .nothing reason => .nothing reason
    | _ => .nothing .notDirectory

/-- Looks under the path that a text spells. -/
def look (w : Workspace) (text : String) : Found :=
  let bytes := Text.utf8 text
  if bytes.isEmpty then .nothing .notFound
  else if Path.longest < bytes.length then .nothing .nameTooLong
  else w.follow [] (Path.names w.directory bytes)

/-- The text of a file.  A database without anything is an empty file, and any other spells no
text. -/
def readText (w : Workspace) (text : String) : Except ReadFault String :=
  match w.look text with
  | .directory => .error .isDirectory
  | .text content => .ok content
  | .database f => if f.tables.isEmpty && !f.logged then .ok "" else .error .notText
  | .nothing reason => .error reason

/-- Whether there is anything under the path that a text spells. -/
def present (w : Workspace) (text : String) : Bool :=
  match w.look text with
  | .nothing _ => false
  | _ => true

/-! ## Databases -/

/-- Replaces the database under a path. -/
def setDatabase (path : Path) (f : DatabaseFile) (w : Workspace) : Workspace :=
  { w with databases := (path, f) :: w.databases.filter (·.1 != path) }

/-- The number of bytes that the path of a database may have: its journal needs some more. -/
def longestDatabasePath : Nat := 504

/-- The number of bytes that a path may have while its names are being followed to a database. -/
def longestDatabaseWay : Nat := 511

/-- Follows one name of the path of a database. -/
def databaseStep (w : Workspace) (path : Path) (name : List UInt8) : Option Path :=
  let next := path.step name
  if next.length ≤ path.length then some next
  else if longestDatabaseWay < next.byteCount then none
  else
    match w.follow path [name] with
    | .nothing .notFound => some next
    | .nothing _ => none
    | _ => some next

/-- The path of a database.  Its names are taken as they are written, and `..` takes back the name
before it even if nothing is there; but a name may not come after the name of a file. -/
def databasePath? (w : Workspace) (bytes : List UInt8) : Option Path := do
  let path ← (Path.names w.directory bytes).foldlM w.databaseStep []
  if path.isEmpty || longestDatabasePath < path.byteCount then none else some path

/-- Makes the database under a path ready for the documents in a table. -/
def readyDatabase (path : Path) (l : Location) (table : String) (f : DatabaseFile) (w : Workspace) :
    Except RegistryError Unit × Workspace :=
  let (outcome, f) := f.ready l table
  (outcome, w.setDatabase path f)

/-- The outcome for a file that cannot be used, which shows after the name of the table. -/
def refuseFile (table : String) : Except RegistryError Unit := do
  Database.validateTable table
  throw .storage

/-- The number of bytes that the name of a journal adds to that of its database. -/
def journalSuffix : Nat := 8

/-- Makes the database in a file ready for the documents in a table. -/
def openFile (path : Path) (l : Location) (table : String) (w : Workspace) :
    Except RegistryError Unit × Workspace :=
  let used (f : DatabaseFile) : Except RegistryError Unit × Workspace :=
    if Path.longestName < (path.getLast?.getD []).length + journalSuffix then
      (refuseFile table, w.setDatabase path f)
    else w.readyDatabase path l table f
  match w.lookAt path with
  | .directory => (.error .storage, w)
  | .database f => used f
  | .text content => if content.isEmpty then used {} else (refuseFile table, w)
  | .nothing _ =>
    if l.mode = .create && w.isDirectory path.dropLast then used {} else (.error .storage, w)

/-- The documents in the memory of the present run. -/
def memoryStore : Store (StateM Workspace) where
  read key := do return .ok ((← get).documents.get? key)
  write key document expected :=
    modifyGet fun w =>
      let (outcome, ds) := w.documents.write key document expected
      (.ok outcome, { w with documents := ds })

/-- The documents in a table of a database that is kept somewhere. -/
def tableStore (load : Workspace → DatabaseFile) (save : DatabaseFile → Workspace → Workspace)
    (l : Location) (table : String) : Store (StateM Workspace) where
  read key := do return ((load (← get)).tables.table table).read key
  write key document expected :=
    modifyGet fun w =>
      let f := load w
      match l.write table key document expected f.tables with
      | .ok (outcome, tables) => (.ok outcome, save { f with tables } w)
      | .error e => (.error e, w)

/-- The documents in a table of the database of the present run that is in no file. -/
def openUnfiled (l : Location) (table : String) :
    StateM Workspace (Except RegistryError (Store (StateM Workspace))) := do
  let (outcome, f) := DatabaseFile.ready l table {}
  modify fun w => { w with unfiled := f }
  return outcome.map fun () => tableStore (·.unfiled) (fun f w => { w with unfiled := f }) l table

/-- Opens a table of a database. -/
def openDatabase (l : Location) (table : String) :
    StateM Workspace (Except RegistryError (Store (StateM Workspace))) := do
  match l.file with
  | none => openUnfiled l table
  | some bytes =>
    match (← get).databasePath? bytes with
    | none => return .error .storage
    | some path =>
      let outcome ← modifyGet (openFile path l table)
      let load (w : Workspace) : DatabaseFile := (w.databases.lookup path).getD {}
      return outcome.map fun () => tableStore load (setDatabase path) l table

/-- The host that a workspace makes. -/
def host : Host (StateM Workspace) where
  environment name := do return (← get).environment.lookup name
  present path := do return (← get).present path
  readText path := do return (← get).readText path
  readInput := do return .ok (← get).input
  openMemory := do
    modify fun w => { w with documents := [] }
    return memoryStore
  openDatabase := openDatabase

/-- Adds a file and the directories that lead to it. -/
def addFile (text content : String) (w : Workspace) : Workspace :=
  let path := Path.ofText w.directory text
  { w with
    files := (path, content) :: w.files
    directories := (List.range path.length).map (fun n => path.take n) ++ w.directories }

end Workspace

end MetricRegistry
