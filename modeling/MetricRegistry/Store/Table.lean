import MetricRegistry.Store.Basic

/-!
# Documents in the tables of a database

A table has a row for each key, and its column for versions holds signed integers of 64 bits.
Writing is one conditional statement that tells how many rows it changed; only if it changed none
does a second statement look for the version that stood in the way.  A `Database` holds tables by
name, without regard to the case of the letters.
-/

namespace MetricRegistry

/-- A row of a table. -/
structure Row where
  key : String
  version : Int
  document : List UInt8
  deriving DecidableEq, Repr

/-- The rows of a table. -/
abbrev Table := List Row

/-- The number that a version is stored as, a signed one of 64 bits. -/
def encodeVersion (version : Version) : Except RegistryError Int :=
  if version < UInt64.size / 2 then .ok version else .error (.corruption (.versionTooLarge version))

/-- The version that a stored number stands for. -/
def decodeVersion (stored : Int) : Except RegistryError Version :=
  if 0 ≤ stored then .ok stored.toNat else .error (.corruption (.negativeVersion stored))

namespace Table

/-- The row with a key. -/
def select (t : Table) (key : String) : Option Row :=
  t.find? (·.key == key)

/-- Replaces the document of the row with a key and a version; gives the number of rows changed. -/
def updateWhere (t : Table) (key : String) (current : Int) (document : List UInt8)
    (version : Int) : Nat × Table :=
  (t.countP fun r => r.key == key && r.version == current,
    t.map fun r =>
      if r.key == key && r.version == current then ⟨key, version, document⟩ else r)

/-- Adds a row unless its key is there; gives the number of rows added. -/
def insertNew (t : Table) (row : Row) : Nat × Table :=
  if (t.select row.key).isSome then (0, t) else (1, t ++ [row])

/-- Reads the document under a key. -/
def read (t : Table) (key : String) : Except RegistryError (Option Stored) :=
  match t.select key with
  | none => .ok none
  | some row => do return some ⟨row.document, ← decodeVersion row.version⟩

/-- Runs the statement of a conditional write. -/
def change (t : Table) (key : String) (document : List UInt8) (expected : Option Version) :
    Except RegistryError (Nat × Table) := do
  let version ← encodeVersion (nextVersion expected)
  match expected with
  | some current => return t.updateWhere key (← encodeVersion current) document version
  | none => return t.insertNew ⟨key, version, document⟩

/-- Writes a document if the stored version is as expected. -/
def write (t : Table) (key : String) (document : List UInt8) (expected : Option Version) :
    Except RegistryError (Outcome × Table) := do
  let (changed, t) ← t.change key document expected
  if changed = 1 then return (.committed (nextVersion expected), t)
  match t.select key with
  | none => return (.conflict none, t)
  | some row => return (.conflict (some (← decodeVersion row.version)), t)

end Table

/-- The tables of a database, under names in lower case. -/
abbrev Database := List (String × Table)

namespace Database

/-- The table that holds the documents where none is named. -/
def defaultTable : String := "schema_registry"

/-- A name without regard to the case of its letters. -/
def fold (name : String) : String :=
  name.toLower

/-- A character of a plain identifier. -/
def isNameChar (c : Char) : Bool :=
  c.isAlphanum || c == '_'

/-- Whether a text is a plain identifier. -/
def isPlainName (name : String) : Bool :=
  match name.toList with
  | [] => false
  | c :: cs => !c.isDigit && (c :: cs).all isNameChar

/-- The words of the query language that name nothing unless they are quoted. -/
def keywords : List String :=
  ["add", "all", "alter", "and", "as", "autoincrement", "between", "case", "check", "collate",
    "commit", "constraint", "create", "default", "deferrable", "delete", "distinct", "drop", "else",
    "escape", "except", "exists", "foreign", "from", "group", "having", "if", "in", "index",
    "insert", "intersect", "into", "is", "isnull", "join", "limit", "not", "nothing", "notnull",
    "null", "on", "or", "order", "primary", "references", "returning", "select", "set", "table",
    "then", "to", "transaction", "union", "unique", "update", "using", "values", "when", "where"]

/-- The names that no table can be given, as they are written without quotes: those that a database
keeps for itself and the keywords. -/
def isReserved (name : String) : Bool :=
  "sqlite_".toList.isPrefixOf (fold name).toList || keywords.contains (fold name)

/-- Checks that a text may name a table. -/
def validateTable (name : String) : Except RegistryError Unit :=
  if isPlainName name then .ok ()
  else .error (.configuration s!"table name '{name}' is not a plain identifier")

/-- The rows of a table; one that was never opened has none. -/
def table (db : Database) (name : String) : Table :=
  (db.lookup (fold name)).getD []

/-- Whether a table was opened before. -/
def hasTable (db : Database) (name : String) : Bool :=
  (db.lookup (fold name)).isSome

/-- Replaces the rows of a table. -/
def setTable (name : String) (t : Table) : Database → Database
  | [] => [(fold name, t)]
  | (n, u) :: db => if n == fold name then (n, t) :: db else (n, u) :: setTable name t db

/-- Makes sure that a table is there. -/
def openTable (db : Database) (name : String) : Except RegistryError Database := do
  validateTable name
  if isReserved name then throw .storage
  return db.setTable name (db.table name)

/-- The store of documents in a table of a database. -/
def store (name : String) : Store (StateM Database) where
  read key := do return ((← get).table name).read key
  write key document expected := do
    match ((← get).table name).write key document expected with
    | .ok (outcome, t) => do
      modify (setTable name t)
      return .ok outcome
    | .error e => return .error e

end Database

end MetricRegistry
