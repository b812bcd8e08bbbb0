import MetricRegistry.Command.Run
import MetricRegistry.Store.DatabaseJson
import MetricRegistry.Store.Memory

/-!
# The program

The host that the real machine makes, and `main`.  A database file is locked for each of the two
things that a store does, so that several processes may share one.
-/

namespace MetricRegistry

/-- The number of a fault of the machine, which may be given as a negative one. -/
def faultNumber (code : UInt32) : UInt32 :=
  if code < 0x80000000 then code else 0 - code

/-- Why the machine refuses to read a file. -/
def readFault (e : IO.Error) : ReadFault :=
  match e with
  | .noFileOrDirectory .. => .notFound
  | .inappropriateType _ code _ => if faultNumber code = 20 then .notDirectory else .isDirectory
  | .invalidArgument _ code _ =>
    if faultNumber code = 36 then .nameTooLong else .other (toString e)
  | _ => .other (toString e)

/-- The text that the bytes of a file spell. -/
def textOf (bytes : ByteArray) : Except ReadFault String :=
  match String.fromUTF8? bytes with
  | some text => .ok text
  | none => .error .notText

/-- The text of a file of the machine. -/
def readFileText (path : String) : IO (Except ReadFault String) := do
  try
    return textOf (← IO.FS.readBinFile path)
  catch e => return .error (readFault e)

/-- Whether the machine has anything under a path. -/
def isPresent (path : String) : IO Bool := do
  try
    discard (IO.FS.Handle.mk path .read)
    return true
  catch e =>
    match readFault e with
    | .notFound => return false
    | .notDirectory => return false
    | .nameTooLong => return false
    | _ => return true

/-- The documents in the memory of the process. -/
def processStore (ref : IO.Ref Documents) : Store IO where
  read key := do return .ok ((← ref.get).get? key)
  write key document expected := do
    return .ok (← ref.modifyGet fun ds => ds.write key document expected)

/-- Looks at the database in a file, and changes it if that does not fail. -/
def withDatabase {α : Type} (l : Location) (path : String)
    (use : Database → Except RegistryError (α × Database)) : IO (Except RegistryError α) := do
  try
    if l.mode = .create then
      discard (IO.FS.Handle.mk path .append)
    let file ← IO.FS.Handle.mk path (if l.writable then .readWrite else .read)
    file.lock l.writable
    let bytes ← file.readBinToEnd
    match Database.ofJson? bytes.toList with
    | none => return .error .storage
    | some db =>
      match use db with
      | .error e => return .error e
      | .ok (result, changed) =>
        if changed != db then
          file.rewind
          file.truncate
          file.write changed.toJson.toByteArray
          file.flush
        return .ok result
  catch _ => return .error .storage

/-- The documents in a table of the database in a file. -/
def fileStore (l : Location) (path table : String) : Store IO where
  read key := withDatabase l path fun db => do return (← (db.table table).read key, db)
  write key document expected := withDatabase l path (l.write table key document expected)

/-- The documents in a table of a database that is in no file. -/
def unfiledStore (ref : IO.Ref Database) (l : Location) (table : String) : Store IO where
  read key := do return ((← ref.get).table table).read key
  write key document expected := ref.modifyGet fun db =>
    match l.write table key document expected db with
    | .ok (outcome, changed) => (.ok outcome, changed)
    | .error e => (.error e, db)

/-- Opens a table of a database of the machine. -/
def openTable (l : Location) (table : String) : IO (Except RegistryError (Store IO)) := do
  match l.file with
  | none =>
    match l.openTable table [] with
    | .ok db => return .ok (unfiledStore (← IO.mkRef db) l table)
    | .error e => return .error e
  | some bytes =>
    match Text.ofUtf8? bytes with
    | none => return .error .storage
    | some path =>
      match ← withDatabase l path fun db => do return ((), ← l.openTable table db) with
      | .ok () => return .ok (fileStore l path table)
      | .error e => return .error e

/-- The host that the machine makes. -/
def machine : Host IO where
  environment name := IO.getEnv name
  present := isPresent
  readText := readFileText
  readInput := do
    try
      return textOf (← (← IO.getStdin).readBinToEnd)
    catch e => return .error (readFault e)
  openMemory := do return processStore (← IO.mkRef [])
  openDatabase := openTable

end MetricRegistry

/-- Does what the command line asks for. -/
def main (arguments : List String) : IO UInt32 := do
  let ended ← MetricRegistry.Command.run MetricRegistry.machine arguments
  IO.print ended.output
  IO.eprint ended.errors
  return ended.code.toUInt32
