/-!
# Arguments of a command

An argument is an option, `--name value` or `--name=value`, or it stands for itself.  After `--` all
arguments stand for themselves.  `scan` sorts the arguments of a command and stops at the first that
the command does not take.
-/

namespace MetricRegistry.Command

/-- An option that a command takes. -/
structure OptionRule where
  name : String
  /-- Whether the option may be given more than once. -/
  repeatable : Bool
  accepts : String → Bool

/-- Why the arguments are not followed to their end. -/
inductive Stop where
  | usage
  | help
  | version
  deriving DecidableEq, Repr

/-- The arguments of a command. -/
structure Arguments where
  /-- The options with their values, in their order. -/
  options : List (String × String) := []
  /-- The arguments that stand for themselves. -/
  words : List String := []
  deriving DecidableEq, Repr

namespace Arguments

/-- The values of an option. -/
def all (a : Arguments) (name : String) : List String :=
  (a.options.filter (·.1 == name)).map (·.2)

/-- The last value of an option. -/
def last? (a : Arguments) (name : String) : Option String :=
  (a.all name).getLast?

end Arguments

/-- What an argument is. -/
inductive Shape where
  | word (text : String)
  /-- An option, perhaps with its value. -/
  | option (name : String) (value : Option String)
  /-- Letters after one dash. -/
  | letters (text : List Char)
  /-- The two dashes after which all arguments stand for themselves. -/
  | divider
  deriving DecidableEq, Repr

/-- What an argument is. -/
def shapeOf (argument : String) : Shape :=
  match argument.toList with
  | ['-', '-'] => .divider
  | '-' :: '-' :: cs =>
    match cs.dropWhile (· != '=') with
    | [] => .option (String.ofList cs) none
    | _ :: value => .option (String.ofList (cs.takeWhile (· != '='))) (some (String.ofList value))
  | '-' :: c :: cs => .letters (c :: cs)
  | _ => .word argument

/-- The value of an option and the arguments after it.  A value that is an argument of its own may
not look like an option. -/
def optionValue : Option String → List String → Except Stop (String × List String)
  | some value, rest => .ok (value, rest)
  | none, [] => .error .usage
  | none, argument :: rest =>
    match shapeOf argument with
    | .word value => .ok (value, rest)
    | _ => .error .usage

/-- Adds an option to the arguments. -/
def addOption (rules : List OptionRule) (name value : String) (a : Arguments) :
    Except Stop Arguments :=
  match rules.find? (·.name == name) with
  | none => .error .usage
  | some rule =>
    if !rule.repeatable && (a.last? name).isSome then .error .usage
    else if rule.accepts value then .ok { a with options := a.options ++ [(name, value)] }
    else .error .usage

/-- Where a command stops for a reason of its own: an argument that asks for its usage, or for the
version if it knows one. -/
def asked (hasVersion : Bool) : Shape → Option Stop
  | .option "help" none => some .help
  | .letters ('h' :: _) => some .help
  | .option "version" none => if hasVersion then some .version else none
  | .letters ('V' :: _) => if hasVersion then some .version else none
  | _ => none

/-- The options at the front of some arguments, and the rest from the first word on. -/
def leading (rules : List OptionRule) :
    Nat → Arguments → List String → Except Stop (Arguments × List String)
  | 0, _, _ => .error .usage
  | _, a, [] => .ok (a, [])
  | rounds + 1, a, argument :: rest =>
    match shapeOf argument with
    | .word _ => .ok (a, argument :: rest)
    | .option name value =>
      match asked true (.option name value) with
      | some stop => .error stop
      | none => do
        if (rules.find? (·.name == name)).isNone then throw .usage
        let (value, rest) ← optionValue value rest
        leading rules rounds (← addOption rules name value a) rest
    | shape => .error ((asked true shape).getD .usage)

/-- Adds words to the arguments, up to a number. -/
def addWords (most : Nat) (words : List String) (a : Arguments) : Except Stop Arguments :=
  if a.words.length + words.length ≤ most then .ok { a with words := a.words ++ words }
  else .error .usage

/-- Sorts the arguments of a command that takes some options and a number of words. -/
def scan (rules : List OptionRule) (most : Nat) :
    Nat → Arguments → List String → Except Stop Arguments
  | 0, _, _ => .error .usage
  | _, a, [] => .ok a
  | rounds + 1, a, argument :: rest =>
    match shapeOf argument with
    | .word word => do scan rules most rounds (← addWords most [word] a) rest
    | .divider => addWords most rest a
    | .option name value =>
      match asked false (.option name value) with
      | some stop => .error stop
      | none => do
        if (rules.find? (·.name == name)).isNone then throw .usage
        let (value, rest) ← optionValue value rest
        scan rules most rounds (← addOption rules name value a) rest
    | shape => .error ((asked false shape).getD .usage)

end MetricRegistry.Command
