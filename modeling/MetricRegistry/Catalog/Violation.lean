import MetricRegistry.Text.Blank
import MetricRegistry.Text.Escaped
import MetricRegistry.Timestamp.Format

/-!
# Rules of the catalog

The kinds of entity that a catalog names, the scopes in which a name is unique, and `Violation`,
the rules that a change of the catalog or a stored catalog can break, with their wording.
-/

namespace MetricRegistry.Catalog

/-- The kinds of thing that have a name. -/
inductive Entity where
  | org
  | metric
  | field
  | alternateName
  deriving DecidableEq, Repr

/-- The word for a kind of thing. -/
def Entity.word : Entity → String
  | .org => "org"
  | .metric => "metric"
  | .field => "field"
  | .alternateName => "alias"

/-- Where a name must be unique. -/
inductive Scope where
  /-- Among the metrics of an organization. -/
  | metrics
  /-- Among the fields of the metric with a name. -/
  | fieldsOf (metric : String)
  deriving DecidableEq, Repr

/-- What a scope names. -/
def Scope.entity : Scope → Entity
  | .metrics => .metric
  | .fieldsOf _ => .field

/-- The rule that a catalog breaks. -/
inductive Violation where
  | emptyName (what : String)
  | paddedName (what name : String)
  | controlInName (what name : String)
  | duplicateName (what name : String)
  /-- An alias of a new entity repeats its name or an earlier alias. -/
  | repeatedAlias (scope : Scope) (alternate : String)
  /-- A name belongs to another entity already. -/
  | nameTaken (scope : Scope) (name owner : String)
  /-- No id is left to give out. -/
  | idsExhausted (scope : Scope)
  /-- An id is used twice, or was never given out. -/
  | unsoundId (scope : Scope) (id : UInt32)
  /-- A name resolves to two entities, or to one entity twice. -/
  | sharedName (scope : Scope) (name : String)
  | unknownFieldType (name : String)
  | badTimestampFormat (fault : Timestamp.FormatFault)
  /-- A rule of the caller's own, in words. -/
  | stated (rule : String)
  deriving DecidableEq, Repr

/-- The wording of a broken rule. -/
def Violation.message : Violation → String
  | .emptyName what => s!"{what} must not be empty"
  | .paddedName what name => s!"{what} '{name}' has leading or trailing whitespace"
  | .controlInName what name =>
    let shown := Text.escaped name
    s!"{what} '{shown}' contains control characters"
  | .duplicateName what name => s!"duplicate {what} '{name}'"
  | .repeatedAlias scope alternate =>
    let word := scope.entity.word
    s!"{word} alias '{alternate}' is repeated"
  | .nameTaken .metrics name owner => s!"'{name}' already names metric '{owner}'"
  | .nameTaken (.fieldsOf metric) name owner =>
    s!"'{name}' already names field '{owner}' of metric '{metric}'"
  | .idsExhausted scope =>
    let word := scope.entity.word
    s!"{word} id space exhausted"
  | .unsoundId .metrics id => s!"metric id {id} is duplicated or unallocated"
  | .unsoundId (.fieldsOf metric) id =>
    s!"field id {id} of metric '{metric}' is duplicated or unallocated"
  | .sharedName .metrics name =>
    s!"metric name or alias '{name}' resolves to more than one metric"
  | .sharedName (.fieldsOf metric) name =>
    s!"field name or alias '{name}' resolves to more than one field of metric '{metric}'"
  | .unknownFieldType name => s!"unknown field type '{name}'"
  | .badTimestampFormat fault => fault.message
  | .stated rule => rule

/-- Checks that a text may serve as a name: it has characters, no blanks at its ends and no
controls. -/
def validateName (what name : String) : Except Violation Unit :=
  if name.isEmpty then .error (.emptyName what)
  else if Text.trim name != name then .error (.paddedName what name)
  else if name.toList.any Text.isControl then .error (.controlInName what name)
  else .ok ()

/-- Checks that texts may serve as names and that none repeats one of `earlier` or each other. -/
def validateAfter (what : String) (earlier : List String) : List String → Except Violation Unit
  | [] => .ok ()
  | name :: names => do
    validateName what name
    if earlier.contains name then throw (.duplicateName what name)
    validateAfter what (name :: earlier) names

/-- Checks that texts may serve as names and that none repeats another. -/
def validateDistinct (what : String) (names : List String) : Except Violation Unit :=
  validateAfter what [] names

end MetricRegistry.Catalog
