import MetricRegistry.Json.Parser

/-!
# Tagged values

A tagged value is one of several alternatives, and a tag says which.  It is an object with the tag
as one of its members, or an array with the tag as its first item.  `tagged` reads the tag and
keeps the rest, its `Content`, for the alternative to judge; `Content.fields?` looks the fields of
an alternative up in it.
-/

namespace MetricRegistry.Json

open Ascii

/-- What stands beside a tag. -/
inductive Content where
  | named (members : List (String × Value))
  | ordered (items : List Value)

/-- A tag and what stands beside it. -/
structure Tagged (τ : Type) where
  tag : τ
  content : Content

namespace Content

/-- Looks fields up by name, in the members of an object or, from their order, in the items of an
array.  A field may not come twice, and an array may have no item beyond the last. -/
def fields? (names : List String) : Content → Option (String → Option Value)
  | .named members =>
    if names.all fun n => (Value.named n members).length ≤ 1 then
      some fun n => (Value.named n members).head?
    else none
  | .ordered items =>
    if items.length ≤ names.length then some fun n => (names.zip items).lookup n else none

/-- Looks fields up by name in the members of an object alone. -/
def namedFields? (names : List String) : Content → Option (String → Option Value)
  | .named members => (Content.named members).fields? names
  | .ordered _ => none

end Content

/-- Reads a tag. -/
def tag {τ : Type} (ofName : String → Option τ) : Reader τ := fun s => do
  let (name, s) ← text s
  match ofName name with
  | some t => return (t, s)
  | none => throw .mismatched

/-- How to read on after the name of a member, the tag's or another. -/
def taggedMember {τ : Type} (key : String) (ofName : String → Option τ) (item : Reader Value)
    (read : Option τ × List (String × Value)) (name : String) :
    Except Fault (Reader (Option τ × List (String × Value))) :=
  if name == key then
    match read.1 with
    | some _ => .error .mismatched
    | none => .ok fun s => do
      let (t, s) ← tag ofName s
      return ((some t, read.2), s)
  else
    .ok fun s => do
      let (v, s) ← item s
      return ((read.1, (name, v) :: read.2), s)

/-- Reads a tagged value.  `key` names the member that holds the tag. -/
def tagged {τ : Type} (key : String) (ofName : String → Option τ) : Reader (Tagged τ) := fun s =>
  let item := value (maxDepth - 1)
  match skipSpace s with
  | [] => .error .truncated
  | b :: rest =>
    if b == openBrace then do
      let (read, s) ←
        members string (taggedMember key ofName item) (rest.length + 1) true (none, []) rest
      match read.1 with
      | some t => return (⟨t, .named read.2.reverse⟩, s)
      | none => throw .mismatched
    else if b == openBracket then do
      match ← nextElement true rest with
      | none => throw .mismatched
      | some s =>
        let (t, s) ← tag ofName s
        let (items, s) ← elements item (s.length + 1) false s
        return (⟨t, .ordered items⟩, s)
    else .error (otherKind (b :: rest))

end MetricRegistry.Json
