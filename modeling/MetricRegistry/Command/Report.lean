import MetricRegistry.Command.Line
import MetricRegistry.Json.Printer
import MetricRegistry.Request.Response

/-!
# Responses for people to read

A response is shown as lines of text, or as JSON over several lines.
-/

namespace MetricRegistry.Command

open Catalog

/-- The aliases after a name, if there are any. -/
def aliasesShown (aliases : List String) : String :=
  if aliases.isEmpty then ""
  else
    let list := ", ".intercalate aliases
    s!" (aliases: {list})"

/-- A list of texts, a dash if it is empty. -/
def listShown (texts : List String) : String :=
  if texts.isEmpty then "-" else ", ".intercalate texts

/-- The line of a field. -/
def fieldLine (f : Field) : String :=
  let id := f.id
  let name := f.naming.name
  let type := f.type.wire
  let aliases := aliasesShown f.naming.aliases
  s!"      [{id}] {name}: {type}{aliases}"

/-- The lines of a metric and its fields. -/
def metricLines (m : Metric) : List String :=
  let id := m.id
  let name := m.naming.name
  let aliases := aliasesShown m.naming.aliases
  s!"  [{id}] {name}{aliases}" :: m.fields.entries.map fieldLine

/-- The lines of a response. -/
def responseLines : Response → List String
  | .committed org version changed =>
    if changed then [s!"{org}: committed version {version}"]
    else [s!"{org}: unchanged at version {version}"]
  | .metrics org version metrics =>
    let count := metrics.length
    s!"{org} (version {version}): {count} metric(s)" :: metrics.flatMap metricLines
  | .metric org version metric => s!"{org} (version {version})" :: metricLines metric
  | .tenant tenant =>
    let keys := listShown tenant.metricKeys
    let formats := listShown tenant.timestampFormats
    [tenant.orgId, s!"  metric keys: {keys}", s!"  timestamp formats: {formats}"]

/-- Lines as a text. -/
def unlines (lines : List String) : String :=
  String.join (lines.map (· ++ "\n"))

/-- A response in a style. -/
def shown (style : Style) (r : Response) : String :=
  match style with
  | .text => unlines (responseLines r)
  | .json => unlines [(Text.ofUtf8? (r.toValue.pretty 0)).getD ""]

end MetricRegistry.Command
