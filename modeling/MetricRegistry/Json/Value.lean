/-!
# JSON values

A value keeps the members of an object in the order of the text, repeated names included: whoever
reads an object decides what a repetition means.
-/

namespace MetricRegistry.Json

/-- A number: an integer of 64 bits written plainly, or any other as a scaled significand. -/
inductive Number where
  /-- An integer without fraction or exponent. -/
  | integer (value : Int)
  /-- `significand · 10 ^ exponent`, negated if `negative`. -/
  | real (negative : Bool) (significand : Nat) (exponent : Int)
  deriving DecidableEq, Repr

/-- A JSON value. -/
inductive Value where
  | null
  | bool (value : Bool)
  | number (value : Number)
  | string (text : String)
  | array (items : List Value)
  | object (members : List (String × Value))
  deriving Inhabited, Repr

namespace Value

/-- An integer as a value. -/
def int (n : Int) : Value :=
  .number (.integer n)

/-- A natural number as a value. -/
def nat (n : Nat) : Value :=
  .int n

/-- A list of texts as a value. -/
def texts (ss : List String) : Value :=
  .array (ss.map .string)

/-- An optional value, absent as `null`. -/
def option {α : Type} (f : α → Value) : Option α → Value
  | none => .null
  | some a => f a

/-- The members of an object with a given name, in order. -/
def named (name : String) (members : List (String × Value)) : List Value :=
  (members.filter (·.1 == name)).map (·.2)

/-- The last member of an object with a given name; nothing of any other value. -/
def get? (name : String) : Value → Option Value
  | .object members => (named name members).getLast?
  | _ => none

/-- The text of a string. -/
def text? : Value → Option String
  | .string s => some s
  | _ => none

/-- The value of a plain integer. -/
def int? : Value → Option Int
  | .number (.integer n) => some n
  | _ => none

/-- The items of an array. -/
def items? : Value → Option (List Value)
  | .array items => some items
  | _ => none

/-- The texts of an array that holds nothing else. -/
def texts? : Value → Option (List String)
  | .array items => items.mapM text?
  | _ => none

/-- What `read` makes of a value, where `null` counts as absent. -/
def optional? {α : Type} (read : Value → Option α) : Value → Option (Option α)
  | .null => some none
  | v => (read v).map some

end Value

end MetricRegistry.Json
