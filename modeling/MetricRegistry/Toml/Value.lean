import MetricRegistry.Toml.Moment

/-!
# Values in TOML

`value` reads a text, a number, a moment, a truth value, an array or a table between braces.
-/

namespace MetricRegistry.Toml

/-- A text without the blanks at its front. -/
def skipBlanks (s : List Char) : List Char :=
  s.dropWhile isBlank

/-- Passes over blanks, line breaks and comments.  `comment` says that a comment is going on; it has
to end before the text does. -/
def skipLines (comment : Bool) : List Char → Option (List Char)
  | [] => if comment then none else some []
  | '\r' :: '\n' :: s => skipLines false s
  | '\n' :: s => skipLines false s
  | c :: s =>
    if comment then (if isCommentChar c then skipLines true s else none)
    else if isBlank c then skipLines false s
    else if c == '#' then skipLines true s
    else some (c :: s)

/-! ## Keys -/

/-- A character of a key without marks. -/
def isKeyChar (c : Char) : Bool :=
  c.isAlphanum || c == '_' || c == '-'

/-- Reads one part of a key. -/
def keyPart (s : List Char) : Option (String × List Char) :=
  match s with
  | '"' :: s => asText (quotedText s)
  | '\'' :: s => asText (literalText s)
  | s =>
    let cs := s.takeWhile isKeyChar
    if cs.isEmpty then none else some (String.ofList cs, s.dropWhile isKeyChar)

/-- Reads a key, the parts of which are joined by dots, with the blanks around each; gives the parts
before the last and the last.  The first argument bounds their number. -/
def key : Nat → Reader (List String × String)
  | 0, _ => none
  | parts + 1, s => do
    let (name, s) ← keyPart (skipBlanks s)
    match skipBlanks s with
    | '.' :: s =>
      let ((path, last), s) ← key parts s
      return ((name :: path, last), s)
    | s => return (([], name), s)

/-- The greatest number of parts of a key. -/
def maxParts : Nat := 79

/-! ## Values -/

/-- Reads the items of an array after its opening bracket.  The first argument after the reader of
items bounds the rounds. -/
def arrayItems (item : Reader Node) : Nat → Reader (List Node)
  | 0, _ => none
  | rounds + 1, s => do
    match ← skipLines false s with
    | ']' :: s => return ([], s)
    | s =>
      let (x, s) ← item s
      match ← skipLines false s with
      | ',' :: s =>
        let (xs, s) ← arrayItems item rounds s
        return (x :: xs, s)
      | ']' :: s => return ([x], s)
      | _ => none

/-- Reads the members of a table between braces, from its first key on. -/
def inlineMembers (item : Reader Node) : Nat → Members → Reader Members
  | 0, _, _ => none
  | rounds + 1, ms, s => do
    let ((path, name), s) ← key maxParts s
    match s with
    | '=' :: s =>
      let (x, s) ← item (skipBlanks s)
      let ms ← ms.assign path name x .inline
      match skipBlanks s with
      | ',' :: s => inlineMembers item rounds ms s
      | '}' :: s => return (ms, s)
      | _ => none
    | _ => none

/-- Reads a value that holds no others. -/
def scalar : Reader Node := fun s =>
  match s with
  | '"' :: _ => (text s).map fun (t, s) => (.text t, s)
  | '\'' :: _ => (text s).map fun (t, s) => (.text t, s)
  | 't' :: 'r' :: 'u' :: 'e' :: s => some (.boolean true, s)
  | 'f' :: 'a' :: 'l' :: 's' :: 'e' :: s => some (.boolean false, s)
  | s => moment s <|> real s <|> integer s

/-- Reads a value that nests at most so many arrays and tables. -/
def value : Nat → Reader Node
  | 0 => scalar
  | depth + 1 => fun s =>
    match s with
    | '[' :: s => do
      let (items, s) ← arrayItems (value depth) (s.length + 1) s
      return (.array items, s)
    | '{' :: s =>
      match skipBlanks s with
      | '}' :: s => some (.table .inline [], s)
      | s => do
        let (ms, s) ← inlineMembers (value depth) (s.length + 1) [] s
        return (.table .inline ms, s)
    | s => scalar s

/-- The deepest nesting of arrays and tables between braces. -/
def maxDepth : Nat := 79

end MetricRegistry.Toml
