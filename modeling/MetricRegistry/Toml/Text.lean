/-!
# Texts in TOML

A text stands between quotes, where a backslash starts an escape, or between apostrophes, where it
does not; tripled, both may run over several lines.  The readers here take a text after its opening
mark, up to and with its closing one.  A line break inside a text counts as a line feed.
-/

namespace MetricRegistry.Toml

/-- A reader takes what it reads off the front of a text and gives the rest. -/
abbrev Reader (α : Type) := List Char → Option (α × List Char)

/-- A blank inside a line. -/
def isBlank (c : Char) : Bool :=
  c == ' ' || c == '\t'

/-- A character that may stand in a comment: a tab, or anything but a control character of ASCII. -/
def isCommentChar (c : Char) : Bool :=
  c == '\t' || (0x20 ≤ c.toNat && c != '\x7f')

/-- A character that may stand between apostrophes. -/
def isLiteralChar (c : Char) : Bool :=
  isCommentChar c && c != '\''

/-- A character that may stand between quotes. -/
def isQuotedChar (c : Char) : Bool :=
  isCommentChar c && c != '"' && c != '\\'

/-- The value of a hexadecimal digit. -/
def hexDigit? (c : Char) : Option Nat :=
  if c.isDigit then some (c.toNat - '0'.toNat)
  else if 'a' ≤ c && c ≤ 'f' then some (c.toNat - 'a'.toNat + 10)
  else if 'A' ≤ c && c ≤ 'F' then some (c.toNat - 'A'.toNat + 10)
  else none

/-- The character whose code point some hexadecimal digits spell. -/
def charOfHex? (digits : List Char) : Option Char := do
  let ds ← digits.mapM hexDigit?
  let code := ds.foldl (fun n d => n * 16 + d) 0
  if code.isValidChar then some (Char.ofNat code) else none

/-- The character that a backslash and one more stand for. -/
def shortEscape? : Char → Option Char
  | 'b' => some '\x08'
  | 'f' => some '\x0c'
  | 'n' => some '\n'
  | 'r' => some '\r'
  | 't' => some '\t'
  | '\\' => some '\\'
  | '"' => some '"'
  | _ => none

/-- Puts a character in front of what a reader gives. -/
def prepend (c : Char) (r : Option (List Char × List Char)) : Option (List Char × List Char) :=
  r.map fun (cs, rest) => (c :: cs, rest)

/-- Reads the rest of a text between quotes. -/
def quotedText : Reader (List Char)
  | [] => none
  | '"' :: s => some ([], s)
  | '\\' :: 'u' :: a :: b :: c :: d :: s => do prepend (← charOfHex? [a, b, c, d]) (quotedText s)
  | '\\' :: 'U' :: a :: b :: c :: d :: e :: f :: g :: h :: s => do
    prepend (← charOfHex? [a, b, c, d, e, f, g, h]) (quotedText s)
  | '\\' :: e :: s => do prepend (← shortEscape? e) (quotedText s)
  | c :: s => if isQuotedChar c then prepend c (quotedText s) else none

/-- Reads the rest of a text between apostrophes. -/
def literalText : Reader (List Char)
  | [] => none
  | '\'' :: s => some ([], s)
  | c :: s => if isLiteralChar c then prepend c (literalText s) else none

/-- Whether a line ends here, blanks aside. -/
def endsLine (s : List Char) : Bool :=
  match s.dropWhile isBlank with
  | '\n' :: _ => true
  | '\r' :: '\n' :: _ => true
  | _ => false

/-- Reads the rest of a text between tripled quotes.  A backslash at the end of a line takes all
blanks and line breaks that follow with it; `joining` says that this is going on.  One or two quotes
before the closing mark belong to the text. -/
def quotedLines (joining : Bool) : Reader (List Char)
  | [] => none
  | '"' :: '"' :: '"' :: '"' :: '"' :: s => some (['"', '"'], s)
  | '"' :: '"' :: '"' :: '"' :: s => some (['"'], s)
  | '"' :: '"' :: '"' :: s => some ([], s)
  | '"' :: s => prepend '"' (quotedLines false s)
  | '\r' :: '\n' :: s => if joining then quotedLines true s else prepend '\n' (quotedLines false s)
  | '\n' :: s => if joining then quotedLines true s else prepend '\n' (quotedLines false s)
  | '\\' :: 'u' :: a :: b :: c :: d :: s => do
    prepend (← charOfHex? [a, b, c, d]) (quotedLines false s)
  | '\\' :: 'U' :: a :: b :: c :: d :: e :: f :: g :: h :: s => do
    prepend (← charOfHex? [a, b, c, d, e, f, g, h]) (quotedLines false s)
  | '\\' :: e :: s =>
    if endsLine (e :: s) then quotedLines true (e :: s)
    else do prepend (← shortEscape? e) (quotedLines false s)
  | c :: s =>
    if joining && isBlank c then quotedLines true s
    else if isQuotedChar c then prepend c (quotedLines false s)
    else none

/-- Reads the rest of a text between tripled apostrophes.  One or two apostrophes before the closing
mark belong to the text. -/
def literalLines : Reader (List Char)
  | [] => none
  | '\'' :: '\'' :: '\'' :: '\'' :: '\'' :: s => some (['\'', '\''], s)
  | '\'' :: '\'' :: '\'' :: '\'' :: s => some (['\''], s)
  | '\'' :: '\'' :: '\'' :: s => some ([], s)
  | '\'' :: s => prepend '\'' (literalLines s)
  | '\r' :: '\n' :: s => prepend '\n' (literalLines s)
  | '\n' :: s => prepend '\n' (literalLines s)
  | c :: s => if isLiteralChar c then prepend c (literalLines s) else none

/-- A text without the line break at its front. -/
def dropBreak : List Char → List Char
  | '\n' :: s => s
  | '\r' :: '\n' :: s => s
  | s => s

/-- A text as a reader gives it. -/
def asText (r : Option (List Char × List Char)) : Option (String × List Char) :=
  r.map fun (cs, rest) => (String.ofList cs, rest)

/-- Reads a text with its marks. -/
def text : Reader String
  | '"' :: '"' :: '"' :: s => asText (quotedLines false (dropBreak s))
  | '"' :: s => asText (quotedText s)
  | '\'' :: '\'' :: '\'' :: s => asText (literalLines (dropBreak s))
  | '\'' :: s => asText (literalText s)
  | _ => none

end MetricRegistry.Toml
