import MetricRegistry.Store.Table
import MetricRegistry.Text.Ascii
import MetricRegistry.Text.Utf8

/-!
# Where a database is

A database is named by the path of its file, or by a URI `file:…` whose query may say how to open
it.  `Location.ofName?` takes a name apart and refuses one that no database can have.  What a
location allows is asked for by `Location.openTable` and `Location.write`.
-/

namespace MetricRegistry

open Ascii

/-- What may be done with the file of a database. -/
inductive Mode where
  | readOnly
  | readWrite
  /-- Reading and writing, and making the file if it is missing. -/
  | create
  /-- Reading and writing, without a file. -/
  | memory
  deriving DecidableEq, Repr

/-- How the changes of a database file are made safe. -/
inductive Journal where
  /-- By a log beside the file, through which several processes can share it. -/
  | log
  /-- By a copy of what is being overwritten. -/
  | rollback
  /-- Not at all: the file is taken to be one that never changes. -/
  | frozen
  deriving DecidableEq, Repr

/-- Where a database is, and how it is to be opened. -/
structure Location where
  /-- The bytes of the path of the file; nothing for a database that is in no file. -/
  file : Option (List UInt8)
  mode : Mode := .create
  journal : Journal := .log
  deriving DecidableEq, Repr

namespace Mode

/-- The mode with a name. -/
def named? (name : String) : Option Mode :=
  match name with
  | "ro" => some .readOnly
  | "rw" => some .readWrite
  | "rwc" => some .create
  | "memory" => some .memory
  | _ => none

/-- How much a mode allows. -/
def rank : Mode → Nat
  | .readOnly => 1
  | .readWrite => 2
  | .create => 3
  | .memory => 4

/-- Whether a mode may be narrowed to another.  Without a file everything is allowed. -/
def narrowsTo (current next : Mode) : Bool :=
  next = .memory || next.rank ≤ current.rank

end Mode

namespace Location

/-! ## Names of databases -/

/-- The byte that two hexadecimal digits spell. -/
def escapedByte? (high low : UInt8) : Option UInt8 := do
  return ((← hexDigit? high) * 16 + (← hexDigit? low)).toUInt8

/-- Puts bytes in the place of their escapes, a percent sign and two hexadecimal digits each.  The
escape of a zero byte ends the text. -/
def unescape : List UInt8 → List UInt8
  | percent :: high :: low :: s =>
    match escapedByte? high low with
    | some 0 => []
    | some b => b :: unescape s
    | none => percent :: unescape (high :: low :: s)
  | b :: s => b :: unescape s
  | [] => []

/-- What comes before the first of some byte, and what comes after it. -/
def cut (separator : UInt8) (s : List UInt8) : List UInt8 × List UInt8 :=
  (s.takeWhile (· != separator), (s.dropWhile (· != separator)).drop 1)

/-- The options of a URI. -/
structure Options where
  mode : Mode := .create
  /-- The name of the interface through which files are used. -/
  interface : String := "unix"
  /-- Whether no lock is to be used, as far as it is said. -/
  lockless : Option Bool := none
  /-- Whether the file never changes, as far as it is said. -/
  immutable : Option Bool := none

/-- Whether a value switches an option on: a number whose low byte is not zero, or a word. -/
def isOn (value : String) : Bool :=
  let digits := value.toList.takeWhile Char.isDigit
  if digits.isEmpty then ["on", "yes", "true"].contains value.toLower
  else
    let n := Nat.ofDigitChars 10 digits 0
    n < UInt32.size / 2 && n % UInt8.size != 0

/-- Sets an option.  A mode may only narrow the mode before it; of the switches, the first
occurrence counts; unknown options are passed over. -/
def Options.set (o : Options) (name value : String) : Option Options :=
  match name with
  | "mode" => do
    let mode ← Mode.named? value
    if o.mode.narrowsTo mode then some { o with mode } else none
  | "cache" => if value == "shared" || value == "private" then some o else none
  | "vfs" => some { o with interface := value }
  | "nolock" => some { o with lockless := o.lockless <|> some (isOn value) }
  | "immutable" => some { o with immutable := o.immutable <|> some (isOn value) }
  | _ => some o

/-- Sets the option that a part of a query spells.  Bytes that are no text name nothing. -/
def Options.setPart (o : Options) (part : List UInt8) : Option Options :=
  let (name, value) := cut equals part
  let text (bytes : List UInt8) : String := (Text.ofUtf8? (unescape bytes)).getD ""
  o.set (text name) (text value)

/-- The name of a database in memory. -/
def inMemory : List UInt8 :=
  Text.utf8 ":memory:"

/-- The location of a file that is opened with options. -/
def ofFile? (file : List UInt8) (o : Options) : Option Location :=
  let unfiled := file.isEmpty || file == inMemory || o.mode = .memory
  let frozen := o.immutable == some true
  let journal : Journal := if o.lockless == some true then .rollback else .log
  let filed (journal : Journal) : Location :=
    if unfiled then ⟨none, o.mode, .log⟩
    else ⟨some file, o.mode, if frozen then .frozen else journal⟩
  match o.interface with
  | "unix" => some (filed journal)
  | "unix-excl" => some (filed journal)
  | "unix-none" => some (filed .rollback)
  | "unix-dotfile" => some (filed .rollback)
  | "memdb" => some { filed journal with file := none }
  | _ => none

/-- What follows the authority of a URI, which may be empty or this machine. -/
def afterAuthority? (s : List UInt8) : Option (List UInt8) :=
  match s with
  | slash :: slash :: s =>
    let authority := s.takeWhile (· != slash)
    if authority.isEmpty || authority == Text.utf8 "localhost" then some (s.dropWhile (· != slash))
    else none
  | s => some s

/-- The location that a URI spells after its scheme. -/
def ofUri? (s : List UInt8) : Option Location := do
  let (path, query) := cut questionMark ((← afterAuthority? s).takeWhile (· != hash))
  ofFile? (unescape path) (← (query.splitOn ampersand).foldlM Options.setPart {})

/-- The mark of a URI. -/
def scheme : List UInt8 :=
  Text.utf8 "file:"

/-- The location that a name of a database spells. -/
def ofName? (name : String) : Option Location :=
  let bytes := Text.utf8 name
  if bytes.contains 0 then none
  else if scheme.isPrefixOf bytes then ofUri? (bytes.drop scheme.length)
  else ofFile? bytes {}

/-! ## What a location allows -/

/-- Whether the database may be changed. -/
def writable (l : Location) : Bool :=
  l.mode ≠ .readOnly && l.journal ≠ .frozen

/-- Makes sure that a table of the database is there. -/
def openTable (l : Location) (name : String) (db : Database) : Except RegistryError Database := do
  let opened ← db.openTable name
  if l.writable || db.hasTable name then return opened else throw .storage

/-- Writes a document into a table of the database if the stored version is as expected. -/
def write (l : Location) (name key : String) (document : List UInt8) (expected : Option Version)
    (db : Database) : Except RegistryError (Outcome × Database) := do
  let (outcome, t) ← (db.table name).write key document expected
  if l.writable then return (outcome, db.setTable name t) else throw .storage

end Location

end MetricRegistry
