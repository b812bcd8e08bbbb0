import MetricRegistry.Text.Ranges

/-!
# Blank and control characters

A *blank* is a character with the Unicode property White_Space, a *control* one of the general
category Cc.  `trim` removes the blanks at the two ends of a text and nothing else.
-/

namespace MetricRegistry.Text

/-- The code points with the Unicode property White_Space. -/
def whiteSpace : Ranges :=
  [(0x9, 0xD), (0x20, 0x20), (0x85, 0x85), (0xA0, 0xA0), (0x1680, 0x1680), (0x2000, 0x200A),
    (0x2028, 0x2029), (0x202F, 0x202F), (0x205F, 0x205F), (0x3000, 0x3000)]

/-- A character that `trim` removes. -/
def isBlank (c : Char) : Bool :=
  whiteSpace.contains c

/-- The code points of the general category Cc. -/
def controls : Ranges :=
  [(0x0, 0x1F), (0x7F, 0x9F)]

/-- A control character. -/
def isControl (c : Char) : Bool :=
  controls.contains c

/-- A list of characters without the blanks at its two ends. -/
def trimChars (cs : List Char) : List Char :=
  ((cs.dropWhile isBlank).reverse.dropWhile isBlank).reverse

/-- A text without the blanks at its two ends. -/
def trim (s : String) : String :=
  String.ofList (trimChars s.toList)

end MetricRegistry.Text
