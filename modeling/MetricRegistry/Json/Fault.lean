/-!
# What is wrong with a JSON text

A text that is not the JSON that was asked for has one fault: the first that a reader meets from
left to right.
-/

namespace MetricRegistry.Json

/-- The fault of a text that a reader refuses. -/
inductive Fault where
  /-- The text ends before the value does. -/
  | truncated
  /-- The text is not JSON, or is more than one value. -/
  | malformed
  /-- The text is JSON of another shape. -/
  | mismatched
  deriving DecidableEq, Repr

/-- A reader takes what it reads off the front of a text and gives the rest. -/
abbrev Reader (α : Type) := List UInt8 → Except Fault (α × List UInt8)

end MetricRegistry.Json
