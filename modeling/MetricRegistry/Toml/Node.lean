/-!
# TOML documents as trees

A `Node` is a value of a TOML document, or one of the tables that its headers and dotted keys make.
How a table came about decides whether later lines may add to it.
-/

namespace MetricRegistry.Toml

/-- How a table came about. -/
inductive Origin where
  /-- Between braces. -/
  | inline
  /-- By a header of its own. -/
  | header
  /-- By the header of a table inside it. -/
  | implicit
  /-- By a dotted key. -/
  | dotted
  deriving DecidableEq, Repr

/-- A value or a table of a document. -/
inductive Node where
  | text (text : String)
  | integer (value : Int)
  /-- A number that is no integer, as it is written. -/
  | real (written : String)
  /-- A date, a time of day or both, as it is written. -/
  | moment (written : String)
  | boolean (value : Bool)
  | array (items : List Node)
  /-- The tables with one header in double brackets. -/
  | tables (items : List Node)
  | table (origin : Origin) (members : List (String × Node))

/-- The members of a table. -/
abbrev Members := List (String × Node)

/-- Replaces the member with a name. -/
def Members.replace (name : String) (node : Node) (ms : Members) : Members :=
  ms.map fun m => if m.1 == name then (name, node) else m

/-- The part of a list of tables that its next lines belong to, the last table. -/
def lastTable? (items : List Node) : Option (Origin × Members) :=
  match items.getLast? with
  | some (.table origin ms) => some (origin, ms)
  | _ => none

/-- Changes the table at the end of a path, making the tables on the way that are missing.  A
dotted key may not reach into a table with a header of its own, and nothing may reach into a table
between braces. -/
def Members.descend (dotted : Bool) (change : Origin → Members → Option Members) :
    List String → Origin → Members → Option Members
  | [], origin, ms => change origin ms
  | name :: path, _, ms =>
    match ms.lookup name with
    | none => do
      let origin := if dotted then Origin.dotted else Origin.implicit
      return ms ++ [(name, .table origin (← descend dotted change path origin []))]
    | some (.table origin inner) =>
      if origin = .inline || (dotted && origin = .header) then none
      else do
        let inner ← descend dotted change path origin inner
        return ms.replace name (.table origin inner)
    | some (.tables items) => do
      let (origin, inner) ← lastTable? items
      let inner ← descend dotted change path origin inner
      return ms.replace name (.tables (items.dropLast ++ [.table origin inner]))
    | some _ => none

/-- Adds a member that must be new. -/
def Members.add (name : String) (node : Node) (ms : Members) : Option Members :=
  if (ms.lookup name).isSome then none else some (ms ++ [(name, node)])

/-- Adds the value of a dotted key.  Of the tables on its way, the last must be of the key's own
making. -/
def Members.assign (path : List String) (name : String) (node : Node) (origin : Origin)
    (ms : Members) : Option Members :=
  let insert (reached : Origin) (inner : Members) : Option Members :=
    if (reached = .dotted) = path.isEmpty then none else inner.add name node
  Members.descend true insert path origin ms

end MetricRegistry.Toml
