import MetricRegistry.Toml.Value

/-!
# TOML documents

A document is a sequence of lines: headers, which open a table, and pairs of a key and a value,
which add to the table opened last.  `parse` gives the members of the whole document, or nothing if
the text is not TOML or defines a key twice.
-/

namespace MetricRegistry.Toml

/-- A document up to some line: what it holds so far, and the path of the table opened last. -/
structure Draft where
  root : Members := []
  opened : List String := []

namespace Draft

/-- Opens the table with a header.  One that only the headers of its inner tables have made so far
becomes a table with a header of its own. -/
def openTable (path : List String) (name : String) (d : Draft) : Option Draft := do
  let found (_ : Origin) (ms : Members) : Option Members :=
    match ms.lookup name with
    | none => some (ms ++ [(name, .table .header [])])
    | some (.table .implicit inner) => some (ms.replace name (.table .header inner))
    | some _ => none
  return ⟨← d.root.descend false found path .header, path ++ [name]⟩

/-- Opens one more of the tables with a header in double brackets. -/
def openRepeated (path : List String) (name : String) (d : Draft) : Option Draft := do
  let found (_ : Origin) (ms : Members) : Option Members :=
    match ms.lookup name with
    | none => some (ms ++ [(name, .tables [.table .header []])])
    | some (.tables items) => some (ms.replace name (.tables (items ++ [.table .header []])))
    | some _ => none
  return ⟨← d.root.descend false found path .header, path ++ [name]⟩

/-- Adds a value to the open table. -/
def assign (path : List String) (name : String) (node : Node) (d : Draft) : Option Draft := do
  let into (origin : Origin) (ms : Members) : Option Members := ms.assign path name node origin
  return { d with root := ← d.root.descend false into d.opened .header }

end Draft

/-- Passes over the rest of a line that has nothing but blanks and a comment left. -/
def endLine (s : List Char) : Option (List Char) :=
  let s := match skipBlanks s with
    | '#' :: s => s.dropWhile isCommentChar
    | s => s
  match s with
  | [] => some []
  | '\n' :: s => some s
  | '\r' :: '\n' :: s => some s
  | _ => none

/-- Reads a header after its opening brackets. -/
def header (repeated : Bool) (d : Draft) (s : List Char) : Option (Draft × List Char) := do
  let ((path, name), s) ← key maxParts s
  match repeated, s with
  | true, ']' :: ']' :: s => return (← d.openRepeated path name, ← endLine s)
  | false, ']' :: s => return (← d.openTable path name, ← endLine s)
  | _, _ => none

/-- Reads a key and its value. -/
def pair (d : Draft) (s : List Char) : Option (Draft × List Char) := do
  let ((path, name), s) ← key maxParts s
  match s with
  | '=' :: s =>
    let (node, s) ← value maxDepth (skipBlanks s)
    let s ← endLine s
    return (← d.assign path name node, s)
  | _ => none

/-- Reads the lines of a document.  The first argument bounds their number. -/
def lines : Nat → Draft → List Char → Option Members
  | 0, _, _ => none
  | rounds + 1, d, s =>
    match skipBlanks s with
    | [] => some d.root
    | '#' :: s => do lines rounds d (← endLine ('#' :: s))
    | '\n' :: s => lines rounds d s
    | '\r' :: '\n' :: s => lines rounds d s
    | '[' :: '[' :: s => do
      let (d, s) ← header true d s
      lines rounds d s
    | '[' :: s => do
      let (d, s) ← header false d s
      lines rounds d s
    | s => do
      let (d, s) ← pair d s
      lines rounds d s

/-- The members of a document; a mark of the byte order may come first. -/
def parse (text : String) : Option Members :=
  let s := match text.toList with
    | '\uFEFF' :: s => s
    | s => s
  lines (s.length + 1) {} s

end MetricRegistry.Toml
