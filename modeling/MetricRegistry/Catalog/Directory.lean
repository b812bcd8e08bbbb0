import MetricRegistry.Error

/-!
# Directories

A `Directory` lists entries in the order of their creation and gives out their ids.  An entry has
an id that never changes, a name and further aliases; whatever bears one of these names is found by
it.  A catalog is a directory of metrics, and each metric holds a directory of fields, so what is
said here once holds at both levels.

`create`, `rename`, `addAlias`, `removeAlias` and `delete` change a directory and refuse what would
make a name ambiguous; `check` decides whether ids and names are unambiguous throughout.
-/

namespace MetricRegistry.Catalog

/-- What an entry is called: the name that is shown, and further names for it. -/
structure Naming where
  name : String
  aliases : List String
  deriving DecidableEq, Repr

namespace Naming

/-- The name and the aliases. -/
def all (n : Naming) : List String :=
  n.name :: n.aliases

/-- Whether a text is the name or one of the aliases. -/
def answersTo (n : Naming) (text : String) : Bool :=
  n.all.contains text

end Naming

/-- Things with an id and a naming of their own. -/
class Entry (α : Type) where
  id : α → UInt32
  naming : α → Naming
  rename : α → Naming → α

/-- An element of a list with what stands before and after it. -/
structure Located (α : Type) where
  before : List α
  it : α
  after : List α

namespace Located

variable {α : Type}

/-- The list with another element in the place. -/
def replace (l : Located α) (x : α) : List α :=
  l.before ++ x :: l.after

/-- The list without the element. -/
def remove (l : Located α) : List α :=
  l.before ++ l.after

/-- The first element of a list that has a property. -/
def first? (p : α → Bool) : List α → Option (Located α)
  | [] => none
  | x :: xs =>
    if p x then some ⟨[], x, xs⟩
    else (first? p xs).map fun l => { l with before := x :: l.before }

end Located

/-- Entries in the order of their creation, and the id that the next one gets.  A stored directory
may say zero; ids start at one all the same. -/
structure Directory (α : Type) where
  next : UInt32
  entries : List α
  deriving DecidableEq, Repr

namespace Directory

variable {α : Type} [Entry α]

/-- A directory without entries. -/
def empty : Directory α :=
  ⟨1, []⟩

/-- The entry that answers to a name, and its place. -/
def locate? (d : Directory α) (name : String) : Option (Located α) :=
  Located.first? (fun x => (Entry.naming x).answersTo name) d.entries

/-- The entry that answers to a name. -/
def find? (d : Directory α) (name : String) : Option α :=
  (d.locate? name).map (·.it)

/-- The entry that a caller refers to by a name. -/
def require (scope : Scope) (d : Directory α) (name : String) : Except Rejection (Located α) :=
  match d.locate? name with
  | some l => .ok l
  | none => .error (.notFound scope.entity name)

/-- Refuses a name that some entry answers to. -/
def ensureFree (scope : Scope) (d : Directory α) (name : String) : Except Rejection Unit :=
  match d.find? name with
  | some owner => .error (.invalid (.nameTaken scope name (Entry.naming owner).name))
  | none => .ok ()

/-- Refuses names of a new entry that some entry answers to. -/
def ensureNew (scope : Scope) (d : Directory α) : List String → Except Rejection Unit
  | [] => .ok ()
  | name :: names =>
    match d.find? name with
    | some _ => .error (.alreadyExists scope.entity name)
    | none => ensureNew scope d names

/-- Refuses aliases of a new entry that repeat one of `earlier` or each other. -/
def ensureUnrepeated (scope : Scope) (earlier : List String) :
    List String → Except Rejection Unit
  | [] => .ok ()
  | a :: as =>
    if earlier.contains a then .error (.invalid (.repeatedAlias scope a))
    else ensureUnrepeated scope (a :: earlier) as

/-- The id that a new entry gets, and the one after it. -/
def allocate (scope : Scope) (d : Directory α) : Except Rejection (UInt32 × UInt32) :=
  let id := if d.next = 0 then 1 else d.next
  if id.toNat + 1 < UInt32.size then .ok (id, id + 1) else .error (.invalid (.idsExhausted scope))

/-- Checks what an entry is to be called. -/
def validateNaming (scope : Scope) (n : Naming) : Except Violation Unit := do
  let word := scope.entity.word
  validateName s!"{word} name" n.name
  n.aliases.forM (validateName s!"{word} alias")

/-- Adds an entry, made of its id and what it is to be called. -/
def create (scope : Scope) (make : UInt32 → Naming → α) (n : Naming) (d : Directory α) :
    Except Rejection (Directory α) := do
  (validateNaming scope n).mapError .invalid
  ensureNew scope d n.all
  ensureUnrepeated scope [n.name] n.aliases
  let (id, next) ← allocate scope d
  return ⟨next, d.entries ++ [make id n]⟩

/-- Gives an entry another name.  One of its own aliases becomes its name and ceases to be an
alias; any other name has to be free. -/
def rename (scope : Scope) (reference newName : String) (d : Directory α) :
    Except Rejection (Directory α) := do
  let l ← require scope d reference
  let n := Entry.naming l.it
  if n.name == newName then return d
  if n.aliases.contains newName then
    return { d with entries := l.replace (Entry.rename l.it ⟨newName, n.aliases.erase newName⟩) }
  ensureFree scope d newName
  return { d with entries := l.replace (Entry.rename l.it ⟨newName, n.aliases⟩) }

/-- Gives an entry one more alias. -/
def addAlias (scope : Scope) (reference alternate : String) (d : Directory α) :
    Except Rejection (Directory α) := do
  let l ← require scope d reference
  ensureFree scope d alternate
  let n := Entry.naming l.it
  return { d with
    entries := l.replace (Entry.rename l.it ⟨n.name, n.aliases ++ [alternate]⟩) }

/-- Takes an alias from an entry. -/
def removeAlias (scope : Scope) (reference alternate : String) (d : Directory α) :
    Except Rejection (Directory α) := do
  let l ← require scope d reference
  let n := Entry.naming l.it
  if n.aliases.contains alternate then
    return { d with
      entries := l.replace (Entry.rename l.it ⟨n.name, n.aliases.erase alternate⟩) }
  throw (.notFound .alternateName alternate)

/-- Removes an entry. -/
def delete (scope : Scope) (reference : String) (d : Directory α) :
    Except Rejection (Directory α) := do
  let l ← require scope d reference
  return { d with entries := l.remove }

/-- Changes the inside of an entry. -/
def update (scope : Scope) (reference : String) (change : α → Except Rejection α)
    (d : Directory α) : Except Rejection (Directory α) := do
  let l ← require scope d reference
  return { d with entries := l.replace (← change l.it) }

/-- Adds names to those seen so far, unless one was seen already. -/
def claimNames (scope : Scope) (seen : List String) : List String → Except Violation (List String)
  | [] => .ok seen
  | name :: names =>
    if seen.contains name then .error (.sharedName scope name)
    else claimNames scope (name :: seen) names

/-- Checks entries whose ids and names may not be among those seen before. -/
def checkEntries (scope : Scope) (next : UInt32) (inside : α → Except Violation Unit)
    (ids : List UInt32) (seen : List String) : List α → Except Violation Unit
  | [] => .ok ()
  | x :: xs => do
    if next ≤ Entry.id x || ids.contains (Entry.id x) then throw (.unsoundId scope (Entry.id x))
    let seen ← claimNames scope seen (Entry.naming x).all
    inside x
    checkEntries scope next inside (Entry.id x :: ids) seen xs

/-- Checks that no id was given out twice or not at all and that no name is ambiguous; `inside`
checks each entry by itself. -/
def check (scope : Scope) (inside : α → Except Violation Unit) (d : Directory α) :
    Except Violation Unit :=
  checkEntries scope d.next inside [] [] d.entries

end Directory

end MetricRegistry.Catalog
