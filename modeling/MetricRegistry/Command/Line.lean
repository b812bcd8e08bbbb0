import MetricRegistry.Command.Arguments
import MetricRegistry.Request.Basic

/-!
# The command line

A command line names a subcommand; options that concern every subcommand may stand before it or
among its arguments, where they count more.  `Line.parse` reads one, and refuses what does not fit.
-/

namespace MetricRegistry.Command

open Catalog

/-- What a subcommand asks for. -/
inductive Errand where
  | request (request : Request)
  /-- The request in a file, or on the standard input for a dash. -/
  | apply (file : String)
  deriving DecidableEq, Repr

/-- How a response is shown. -/
inductive Style where
  | text
  | json
  deriving DecidableEq, Repr

/-- A command line. -/
structure Line where
  config : Option String
  database : Option String
  retries : Option Nat
  style : Style
  errand : Errand
  deriving DecidableEq, Repr

/-- A subcommand. -/
structure Subcommand where
  name : String
  /-- The number of its words. -/
  words : Nat
  /-- The options that it takes beside those of every subcommand. -/
  rules : List OptionRule
  /-- What it asks for. -/
  errand : Arguments → Option Errand

/-- A number of attempts: a whole number of 32 bits, perhaps with a sign. -/
def attempts? (text : String) : Option Nat :=
  let (negative, digits) := match text.toList with
    | '+' :: cs => (false, cs)
    | '-' :: cs => (true, cs)
    | cs => (false, cs)
  if digits.isEmpty || !digits.all Char.isDigit then none
  else
    let n := Nat.ofDigitChars 10 digits 0
    if n < UInt32.size && (!negative || n == 0) then some n else none

/-- The style with a name. -/
def style? (name : String) : Option Style :=
  match name with
  | "text" => some .text
  | "json" => some .json
  | _ => none

/-- A path, which has at least one character. -/
def isPath (text : String) : Bool :=
  !text.isEmpty

/-- The options of every subcommand. -/
def commonRules : List OptionRule :=
  [⟨"config", false, isPath⟩, ⟨"db", false, isPath⟩,
    ⟨"retries", false, fun v => (attempts? v).isSome⟩,
    ⟨"format", false, fun v => (style? v).isSome⟩]

/-- An option with any value that may be given more than once. -/
def listRule (name : String) : OptionRule :=
  ⟨name, true, fun _ => true⟩

/-- The options of a subcommand that changes names. -/
def renameRules : List OptionRule :=
  [⟨"rename", false, fun _ => true⟩, listRule "add-alias", listRule "remove-alias"]

/-- The changes of names that a subcommand asks for. -/
def changesOf (a : Arguments) : NameChanges :=
  ⟨a.last? "rename", a.all "add-alias", a.all "remove-alias"⟩

/-- A list of values, absent if there are none. -/
def nonEmpty (values : List String) : Option (List String) :=
  if values.isEmpty then none else some values

/-- The subcommands. -/
def subcommands : List Subcommand :=
  [⟨"create-org", 1, [], fun a => match a.words with
      | [org] => some (.request (.createOrg (some org)))
      | _ => none⟩,
    ⟨"set-tenant", 1, [listRule "metric-key", listRule "timestamp-format"],
      fun a => match a.words with
      | [org] => some (.request (.updateTenant (some org) (nonEmpty (a.all "metric-key"))
          (nonEmpty (a.all "timestamp-format"))))
      | _ => none⟩,
    ⟨"create-metric", 2, [listRule "alias"], fun a => match a.words with
      | [org, metric] =>
        some (.request (.createMetric (some org) (some metric) (a.all "alias")))
      | _ => none⟩,
    ⟨"update-metric", 2, renameRules, fun a => match a.words with
      | [org, metric] => some (.request (.updateMetric (some org) (some metric) (changesOf a)))
      | _ => none⟩,
    ⟨"delete-metric", 2, [], fun a => match a.words with
      | [org, metric] => some (.request (.deleteMetric (some org) (some metric)))
      | _ => none⟩,
    ⟨"create-field", 3,
      [⟨"type", false, fun v => (FieldType.named v).toBool⟩, listRule "alias"],
      fun a => match a.words, (a.last? "type").map FieldType.named with
      | [org, metric, field], some (.ok type) =>
        some (.request (.createField (some org) (some metric) (some field) (some type)
          (a.all "alias")))
      | _, _ => none⟩,
    ⟨"update-field", 3, renameRules, fun a => match a.words with
      | [org, metric, field] =>
        some (.request (.updateField (some org) (some metric) (some field) (changesOf a)))
      | _ => none⟩,
    ⟨"delete-field", 3, [], fun a => match a.words with
      | [org, metric, field] =>
        some (.request (.deleteField (some org) (some metric) (some field)))
      | _ => none⟩,
    ⟨"metrics", 1, [], fun a => match a.words with
      | [org] => some (.request (.getMetrics (some org)))
      | _ => none⟩,
    ⟨"metric", 2, [], fun a => match a.words with
      | [org, metric] => some (.request (.getMetric (some org) (some metric)))
      | _ => none⟩,
    ⟨"tenant", 1, [], fun a => match a.words with
      | [org] => some (.request (.getTenant (some org)))
      | _ => none⟩,
    ⟨"apply", 1, [], fun a => match a.words with
      | [file] => if isPath file then some (.apply file) else none
      | _ => none⟩]

/-- The value of an option: of the subcommand's arguments first, then of those before it, then of
the environment, which has to hold a path wherever it is asked. -/
def pathOption (name : String) (inherited : Option String) (before inside : Arguments) :
    Except Stop (Option String) :=
  match inside.last? name, before.last? name with
  | some inner, some _ => .ok (some inner)
  | inner, outer =>
    if inherited.any String.isEmpty then .error .usage
    else .ok ((inner.orElse fun _ => outer).orElse fun _ => inherited)

/-- The value of an option of every subcommand. -/
def commonOption (name : String) (before inside : Arguments) : Option String :=
  (inside.last? name).orElse fun _ => before.last? name

/-- Reads a command line.  The environment may name the file of the settings and the database. -/
def Line.parse (config database : Option String) (arguments : List String) : Except Stop Line := do
  let rounds := arguments.length + 1
  let (before, rest) ← leading commonRules rounds {} arguments
  match rest with
  | [] => throw .usage
  | name :: rest =>
    match subcommands.find? (·.name == name) with
    | none => throw .usage
    | some command =>
      let inside ← scan (command.rules ++ commonRules) command.words rounds {} rest
      match command.errand inside with
      | none => throw .usage
      | some errand =>
        return {
          config := ← pathOption "config" config before inside
          database := ← pathOption "db" database before inside
          retries := (commonOption "retries" before inside).bind attempts?
          style := ((commonOption "format" before inside).bind style?).getD .text
          errand := errand }

end MetricRegistry.Command
