import MetricRegistry.Timestamp.Internet
import MetricRegistry.Timestamp.Pattern
import MetricRegistry.Text.Blank

/-!
# Timestamp formats

A format is written as one of three keywords or as a pattern.  `parseWith` reads a raw text in a
format, after trimming it, and `parseFirst` takes the first of several formats that reads it; what
is not a format reads nothing.  `validateFormat` refuses in addition a format of blanks alone.
-/

namespace MetricRegistry.Timestamp

/-- The way in which a timestamp is written. -/
inductive Format where
  /-- The Internet timestamp. -/
  | internet
  /-- Milliseconds since the epoch. -/
  | epochMillis
  /-- Seconds since the epoch. -/
  | epochSeconds
  /-- The items of a pattern. -/
  | pattern (items : List Item)
  deriving DecidableEq, Repr

/-- Why a text is refused as a format. -/
inductive FormatFault where
  /-- Nothing but blanks. -/
  | blank
  /-- A pattern with a fault. -/
  | malformed (pattern : String) (fault : PatternFault)
  deriving DecidableEq, Repr

/-- The wording of a fault. -/
def FormatFault.message : FormatFault → String
  | .blank => "timestamp pattern must not be empty"
  | .malformed pattern fault => s!"timestamp pattern '{pattern}' is malformed: {fault.message}"

/-- The format that a text stands for. -/
def Format.ofText (text : String) : Except PatternFault Format :=
  if text == "rfc3339" then .ok .internet
  else if text == "epoch_millis" then .ok .epochMillis
  else if text == "epoch_seconds" then .ok .epochSeconds
  else (Pattern.read text).map .pattern

/-- Checks that a text is a format and not blank. -/
def validateFormat (text : String) : Except FormatFault Unit :=
  if Text.trim text == "" then .error .blank
  else
    match Format.ofText text with
    | .ok _ => .ok ()
    | .error fault => .error (.malformed text fault)

/-- A number that fits in so many bits, of which one is the sign's. -/
def fits? (bits : Nat) (n : Int) : Option Int :=
  let bound : Int := Nat.pow 2 (bits - 1)
  if -bound ≤ n && n < bound then some n else none

/-- An integer that fits in so many bits: decimal digits, perhaps after a sign. -/
def integer? (bits : Nat) (s : List UInt8) : Option Int :=
  let (_, negative, ds) := sign s
  if ds.isEmpty || !ds.all Ascii.isDigit then none
  else fits? bits (signed (Ascii.natOfDigits ds, negative))

/-- Reads the bytes of a timestamp in a format. -/
def Format.read? (format : Format) (s : List UInt8) : Option Instant :=
  match format with
  | .internet => internet? s
  | .epochMillis => do Instant.ofUnixNanos? (← fits? 128 ((← integer? 128 s) * 1000000))
  | .epochSeconds => do Instant.ofUnixSeconds? (← integer? 64 s)
  | .pattern items => (fieldsOf? items s).bind Fields.instant?

/-- Reads a raw text in a format. -/
def parseWith (text raw : String) : Option Instant :=
  match Format.ofText text with
  | .ok format => format.read? (Text.utf8 (Text.trim raw))
  | .error _ => none

/-- Reads a raw text in the first of some formats that fits it. -/
def parseFirst (texts : List String) (raw : String) : Option Instant :=
  texts.findSome? fun text => parseWith text raw

end MetricRegistry.Timestamp
