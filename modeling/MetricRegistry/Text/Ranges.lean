/-!
# Sets of characters as ranges

A character property is a list of closed ranges of code points.  A table of a standard property is
written as such a list, and `Ranges.contains` asks whether a character has the property.
-/

namespace MetricRegistry.Text

/-- A set of code points, as closed ranges. -/
abbrev Ranges := List (Nat × Nat)

/-- Whether a code point lies in one of the ranges. -/
def Ranges.containsCode (ranges : Ranges) (code : Nat) : Bool :=
  ranges.any fun (low, high) => low ≤ code && code ≤ high

/-- Whether a character lies in one of the ranges. -/
def Ranges.contains (ranges : Ranges) (c : Char) : Bool :=
  ranges.containsCode c.toNat

end MetricRegistry.Text
