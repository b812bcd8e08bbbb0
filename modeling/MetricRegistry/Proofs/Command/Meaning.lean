import MetricRegistry.Command.Line
import MetricRegistry.Proofs.Command.Spelling
import MetricRegistry.Proofs.Text.Numerals

/-!
# What command lines mean

A command line is the name of a subcommand with options before it, and options and words after it.
`Asks` says for each of the twelve subcommands which request its words and options stand for, and
`Line.Spelled` adds the options that concern all of them, some of which the environment may give as
well. `parse_eq_ok` says that this is what a command line is read as.
-/

namespace MetricRegistry.Command

open Catalog

/-! ## Options -/

/-- A text spells a number of attempts: a decimal integer of 32 bits. -/
def SpellsAttempts (text : String) (attempts : ℕ) : Prop :=
  ∃ numeral : Text.Numeral, text.toList = numeral.chars ∧ numeral.value = attempts
    ∧ attempts < 2 ^ 32

/-- A text names a style. -/
inductive SpellsStyle : String → Style → Prop where
  | text :
    SpellsStyle "text" .text
  | json :
    SpellsStyle "json" .json

/-- An option that every subcommand has, with a value that it takes. -/
inductive IsCommon : String × String → Prop where
  | config {path} :
    path ≠ "" →
    IsCommon ("config", path)
  | database {path} :
    path ≠ "" →
    IsCommon ("db", path)
  | retries {text attempts} :
    SpellsAttempts text attempts →
    IsCommon ("retries", text)
  | format {text style} :
    SpellsStyle text style →
    IsCommon ("format", text)

/-- The names of the options that every subcommand has. -/
def commonNames : List String :=
  ["config", "db", "retries", "format"]

/-- Beside the options of every subcommand only some others are given: `singles`, which may be given
once as those may, and `lists`, which may be repeated. -/
structure Given.Only (given : Given) (singles lists : List String) : Prop where
  known : ∀ option ∈ given, IsCommon option ∨ option.1 ∈ singles ∨ option.1 ∈ lists
  once : ∀ name ∈ commonNames ++ singles, (given.values name).length ≤ 1

/-- The values of a list, if there are any. -/
def Given.list? (given : Given) (name : String) : Option (List String) :=
  match given.values name with
  | [] => none
  | values => some values

/-- The changes of names that are given. -/
def Given.changes (given : Given) : NameChanges where
  newName := (given.values "rename").head?
  addAliases := given.values "add-alias"
  removeAliases := given.values "remove-alias"

/-! ## Subcommands -/

/-- A subcommand asks for something by its words and the options that are given. -/
inductive Asks (given : Given) : String → List String → Errand → Prop where
  | createOrg {org} :
    given.Only [] [] →
    Asks given "create-org" [org] (.request (.createOrg (some org)))
  | setTenant {org} :
    given.Only [] ["metric-key", "timestamp-format"] →
    Asks given "set-tenant" [org] (.request (.updateTenant (some org)
      (given.list? "metric-key") (given.list? "timestamp-format")))
  | createMetric {org metric} :
    given.Only [] ["alias"] →
    Asks given "create-metric" [org, metric]
      (.request (.createMetric (some org) (some metric) (given.values "alias")))
  | updateMetric {org metric} :
    given.Only ["rename"] ["add-alias", "remove-alias"] →
    Asks given "update-metric" [org, metric]
      (.request (.updateMetric (some org) (some metric) given.changes))
  | deleteMetric {org metric} :
    given.Only [] [] →
    Asks given "delete-metric" [org, metric] (.request (.deleteMetric (some org) (some metric)))
  | createField {org metric field name} {type : FieldType} :
    given.Only ["type"] ["alias"] →
    given.values "type" = [name] →
    name.toUpper = type.wire →
    Asks given "create-field" [org, metric, field] (.request (.createField (some org)
      (some metric) (some field) (some type) (given.values "alias")))
  | updateField {org metric field} :
    given.Only ["rename"] ["add-alias", "remove-alias"] →
    Asks given "update-field" [org, metric, field]
      (.request (.updateField (some org) (some metric) (some field) given.changes))
  | deleteField {org metric field} :
    given.Only [] [] →
    Asks given "delete-field" [org, metric, field]
      (.request (.deleteField (some org) (some metric) (some field)))
  | metrics {org} :
    given.Only [] [] →
    Asks given "metrics" [org] (.request (.getMetrics (some org)))
  | metric {org metric} :
    given.Only [] [] →
    Asks given "metric" [org, metric] (.request (.getMetric (some org) (some metric)))
  | tenant {org} :
    given.Only [] [] →
    Asks given "tenant" [org] (.request (.getTenant (some org)))
  | apply {file} :
    given.Only [] [] →
    file ≠ "" →
    Asks given "apply" [file] (.apply file)

/-! ## Command lines -/

/-- A path is chosen: among the arguments of the subcommand, before the subcommand or, where both
are silent, in the environment, which may only hold an empty path where neither is. -/
structure Chosen (environment outer inner chosen : Option String) : Prop where
  usable : environment ≠ some "" ∨ outer.isSome ∧ inner.isSome
  first : chosen = inner.or (outer.or environment)

/-- The first of some texts spells something, or there is no text. -/
inductive First {α : Type} (spells : String → α → Prop) : List String → Option α → Prop where
  | absent :
    First spells [] none
  | present {text texts a} :
    spells text a →
    First spells (text :: texts) (some a)

/-- Arguments spell a command line, in an environment that may name a file of settings and a
database. -/
inductive Line.Spelled (config database : Option String) : List String → Line → Prop where
  | intro {front name rest outer inner words style?} {line : Line} :
    SpellsOptions front outer →
    outer.Only [] [] →
    Spells rest inner words →
    Asks inner name words line.errand →
    Chosen config (outer.values "config").head? (inner.values "config").head? line.config →
    Chosen database (outer.values "db").head? (inner.values "db").head? line.database →
    First SpellsAttempts (inner.values "retries" ++ outer.values "retries") line.retries →
    First SpellsStyle (inner.values "format" ++ outer.values "format") style? →
    line.style = style?.getD .text →
    Line.Spelled config database (front ++ name :: rest) line

/-! ## Values -/

/-- A number of attempts is read from the digits after its sign. -/
lemma attempts?_of_toList {text : String} {sign digits : List Char} {n : ℕ}
    (signed : sign ∈ [[], ['+'], ['-']]) (chars : text.toList = sign ++ digits)
    (bare : sign = [] → ∀ c ∈ digits.head?, c ≠ '+' ∧ c ≠ '-') :
    attempts? text = some n ↔ digits ≠ [] ∧ (∀ c ∈ digits, c.isDigit)
      ∧ Nat.ofDigitChars 10 digits 0 = n ∧ n < 2 ^ 32 ∧ (sign = ['-'] → n = 0) := by
  have read : attempts? text = if digits.isEmpty || !digits.all Char.isDigit then none
      else if Nat.ofDigitChars 10 digits 0 < UInt32.size
        && (!decide (sign = ['-']) || Nat.ofDigitChars 10 digits 0 == 0) then
        some (Nat.ofDigitChars 10 digits 0)
      else none := by
    unfold attempts?
    rw [chars]
    simp only [List.mem_cons, List.not_mem_nil, or_false] at signed
    obtain rfl | rfl | rfl := signed
    · cases digits with
      | nil => rfl
      | cons c cs =>
        obtain ⟨plus, minus⟩ := bare rfl c rfl
        simp [plus, minus]
    · rfl
    · rfl
  rw [read]
  have size : UInt32.size = 2 ^ 32 := rfl
  by_cases written : digits = []
  · simp [written]
  by_cases decimal : ∀ c ∈ digits, c.isDigit
  · have all : (digits.isEmpty || !digits.all Char.isDigit) = false := by
      simpa using ⟨written, decimal⟩
    simp only [all, size]
    grind
  · have all : (digits.isEmpty || !digits.all Char.isDigit) = true :=
      Bool.or_eq_true_iff.mpr (.inr (by simpa using decimal))
    simp [all, decimal]

/-- What is read as a number of attempts is what spells one. -/
lemma attempts?_eq_some {text : String} {n : ℕ} :
    attempts? text = some n ↔ SpellsAttempts text n := by
  constructor
  · intro read
    obtain ⟨sign, digits, signed, chars, bare⟩ : ∃ sign digits, sign ∈ [[], ['+'], ['-']]
        ∧ text.toList = sign ++ digits ∧ (sign = [] → ∀ c ∈ digits.head?, c ≠ '+' ∧ c ≠ '-') := by
      by_cases plus : text.toList.head? = some '+'
      · exact ⟨['+'], text.toList.tail, by simp, (List.cons_head?_tail plus).symm, nofun⟩
      by_cases minus : text.toList.head? = some '-'
      · exact ⟨['-'], text.toList.tail, by simp, (List.cons_head?_tail minus).symm, nofun⟩
      · refine ⟨[], text.toList, by simp, rfl, fun _ c first => ?_⟩
        rw [Option.mem_def] at first
        exact ⟨fun eq => plus (eq ▸ first), fun eq => minus (eq ▸ first)⟩
    obtain ⟨written, decimal, size, small, zero⟩ :=
      (attempts?_of_toList signed chars bare).mp read
    refine ⟨⟨sign, digits, signed, written, decimal⟩, chars, ?_, small⟩
    rw [Text.Numeral.value, Text.Numeral.size]
    grind
  · rintro ⟨numeral, chars, value, small⟩
    have bare : numeral.sign = [] → ∀ c ∈ numeral.digits.head?, c ≠ '+' ∧ c ≠ '-' := by
      intro _ c first
      have digit := numeral.decimal c (List.mem_of_mem_head? first)
      constructor <;> rintro rfl <;> cases digit
    refine (attempts?_of_toList numeral.signed chars bare).mpr
      ⟨numeral.written, numeral.decimal, ?_⟩
    rw [Text.Numeral.value, Text.Numeral.size] at value
    grind

/-- What is read as a style is what names one. -/
lemma style?_eq_some {text : String} {style : Style} :
    style? text = some style ↔ SpellsStyle text style := by
  constructor
  · intro read
    unfold style? at read
    split at read <;> cases read
    · exact .text
    · exact .json
  · rintro (_ | _) <;> rfl

/-- What is a path is not empty. -/
lemma isPath_iff {text : String} : isPath text = true ↔ text ≠ "" := by
  simp [isPath]

/-- A rule of every subcommand accepts a value. -/
lemma isCommon_iff {option : String × String} :
    IsCommon option
      ↔ ∃ rule ∈ commonRules, rule.name = option.1 ∧ rule.accepts option.2 = true := by
  simp only [commonRules, List.mem_cons, List.not_mem_nil, or_false, exists_eq_or_imp,
    exists_eq_left, isPath_iff, Option.isSome_iff_exists, attempts?_eq_some, style?_eq_some]
  constructor
  · rintro (path | path | spells | spells)
    · exact .inl ⟨rfl, path⟩
    · exact .inr (.inl ⟨rfl, path⟩)
    · exact .inr (.inr (.inl ⟨rfl, _, spells⟩))
    · exact .inr (.inr (.inr ⟨rfl, _, spells⟩))
  · obtain ⟨name, value⟩ := option
    rintro (⟨rfl, path⟩ | ⟨rfl, path⟩ | ⟨rfl, _, spells⟩ | ⟨rfl, _, spells⟩)
    · exact .config path
    · exact .database path
    · exact .retries spells
    · exact .format spells

/-- The rules of every subcommand are about the options that every subcommand has. -/
lemma commonRules_names : commonNames = commonRules.map (·.name) :=
  rfl

section Rules

variable {rules : List OptionRule} {given : Given}

/-- The options that rules allow once. -/
def singlesOf (rules : List OptionRule) : List String :=
  (rules.filter (!·.repeatable)).map (·.name)

/-- The options that rules allow repeatedly. -/
def listsOf (rules : List OptionRule) : List String :=
  (rules.filter (·.repeatable)).map (·.name)

/-- The values of an option are those that it is given with. -/
lemma Given.mem_values {name value : String} :
    value ∈ given.values name ↔ (name, value) ∈ given := by
  simp only [Given.values, List.mem_filterMap, Option.ite_none_right_eq_some, Option.some.injEq]
  constructor
  · rintro ⟨option, mem, rfl, rfl⟩
    exact mem
  · intro mem
    exact ⟨_, mem, rfl, rfl⟩

/-- A rule accepts the values of its option. -/
lemma Fits.accepts (fits : Fits rules given) (clear : Clear rules) {rule : OptionRule}
    (mem : rule ∈ rules) {value : String} (mem' : value ∈ given.values rule.name) :
    rule.accepts value = true := by
  obtain ⟨rule', known, named, accepts⟩ := fits.known _ (Given.mem_values.mp mem')
  obtain rfl := clear.unique mem known named
  exact accepts

/-- Options fit the rules of a subcommand and those of every subcommand if no others are given and
the rules of the subcommand accept their values. -/
lemma fits_append_commonRules (clear : Clear (rules ++ commonRules)) :
    Fits (rules ++ commonRules) given ↔ given.Only (singlesOf rules) (listsOf rules)
      ∧ ∀ rule ∈ rules, ∀ value ∈ given.values rule.name, rule.accepts value = true := by
  constructor
  · intro fits
    refine ⟨⟨fun option mem => ?_, fun name mem => ?_⟩, fun rule mem value mem' => ?_⟩
    · obtain ⟨rule, mem', named, accepts⟩ := fits.known option mem
      obtain own | common := List.mem_append.mp mem'
      · refine .inr ?_
        cases repeatable : rule.repeatable with
        | false => exact .inl (List.mem_map.mpr ⟨rule, by simp [own, repeatable], named⟩)
        | true => exact .inr (List.mem_map.mpr ⟨rule, by simp [own, repeatable], named⟩)
      · exact .inl (isCommon_iff.mpr ⟨rule, common, named, accepts⟩)
    · obtain common | own := List.mem_append.mp mem
      · obtain ⟨rule, mem', rfl⟩ := List.mem_map.mp (commonRules_names ▸ common)
        have single : ∀ rule ∈ commonRules, rule.repeatable = false := by simp [commonRules]
        exact fits.once rule (List.mem_append_right _ mem') (single rule mem')
      · obtain ⟨rule, mem', rfl⟩ := List.mem_map.mp own
        obtain ⟨mem', single⟩ := List.mem_filter.mp mem'
        exact fits.once rule (List.mem_append_left _ mem') (by simpa using single)
    · exact fits.accepts clear (List.mem_append_left _ mem) mem'
  · rintro ⟨⟨known, once⟩, accepts⟩
    refine ⟨fun option mem => ?_, fun rule mem single => ?_⟩
    · obtain common | own := known option mem
      · obtain ⟨rule, mem, accepts⟩ := isCommon_iff.mp common
        exact ⟨rule, List.mem_append_right _ mem, accepts⟩
      · obtain ⟨rule, mem', named⟩ : ∃ rule ∈ rules, rule.name = option.1 := by
          simp only [singlesOf, listsOf, List.mem_map, List.mem_filter] at own
          obtain ⟨rule, ⟨mem', -⟩, named⟩ | ⟨rule, ⟨mem', -⟩, named⟩ := own
          · exact ⟨rule, mem', named⟩
          · exact ⟨rule, mem', named⟩
        refine ⟨rule, List.mem_append_left _ mem', named, accepts rule mem' _ ?_⟩
        rw [named]
        exact Given.mem_values.mpr mem
    · refine once _ (List.mem_append.mpr ?_)
      obtain own | common := List.mem_append.mp mem
      · exact .inr (List.mem_map.mpr ⟨rule, by simp [own, single], rfl⟩)
      · exact .inl (commonRules_names ▸ List.mem_map_of_mem common)

end Rules

/-! ## Subcommands -/

section Subcommands

variable {given : Given} {words : List String} {errand : Errand} {command : Subcommand}

/-- The rules of each subcommand are clear. -/
lemma clear_of_mem (mem : command ∈ subcommands) : Clear (command.rules ++ commonRules) := by
  have distinct : ∀ command ∈ subcommands,
      ((command.rules ++ commonRules).map (·.name)).Nodup := by decide
  have plain : ∀ command ∈ subcommands, ∀ name ∈ (command.rules ++ commonRules).map (·.name),
      name ∉ ["", "help", "version"] := by decide
  exact ⟨List.pairwise_map.mp (distinct command mem),
    fun rule mem' => plain command mem rule.name (List.mem_map_of_mem mem')⟩

/-- The names of subcommands are words. -/
lemma isWord_name (mem : command ∈ subcommands) : IsWord command.name := by
  have plain : ∀ command ∈ subcommands, command.name.toList.head? ≠ some '-' := by decide
  exact .inr (plain command mem)

/-- A subcommand is found by its name. -/
lemma subcommands_find? {name : String} :
    subcommands.find? (·.name == name) = some command
      ↔ command ∈ subcommands ∧ command.name = name := by
  have distinct : (subcommands.map (·.name)).Nodup := by decide
  exact find?_named_eq_some (List.pairwise_map.mp distinct)

/-- The last value of an option that is given once is the first. -/
lemma last?_eq_head? {name : String} (once : (given.values name).length ≤ 1) :
    (⟨given, words⟩ : Arguments).last? name = (given.values name).head? := by
  rw [Arguments.last?, all_eq_values]
  cases values : given.values name with
  | nil => rfl
  | cons value more =>
    have alone : more = [] := by simpa [values] using once
    rw [alone]
    rfl

/-- The values of a list are absent if there are none. -/
lemma nonEmpty_all (name : String) :
    nonEmpty ((⟨given, words⟩ : Arguments).all name) = given.list? name := by
  rw [all_eq_values, nonEmpty, Given.list?]
  cases given.values name <;> rfl

/-- The changes of names are read as they are given. -/
lemma changesOf_eq {lists : List String} (only : given.Only ["rename"] lists) :
    changesOf ⟨given, words⟩ = given.changes := by
  rw [changesOf, all_eq_values, all_eq_values, last?_eq_head? (only.once _ (by simp))]
  rfl

/-- The type of a field is found by its name, whatever the case of its letters. -/
lemma named_eq_ok {name : String} {type : FieldType} :
    FieldType.named name = .ok type ↔ name.toUpper = type.wire := by
  unfold FieldType.named
  constructor
  · intro read
    split at read
    case h_1 found =>
      cases read
      unfold FieldType.ofWire? at found
      split at found <;> cases found <;> assumption
    case h_2 => cases read
  · intro upper
    rw [upper, FieldType.ofWire?_wire]

/-- What a subcommand makes of its words and options is what they ask for. -/
lemma asks_of_errand (mem : command ∈ subcommands)
    (fits : Fits (command.rules ++ commonRules) given)
    (asked : command.errand ⟨given, words⟩ = some errand) :
    Asks given command.name words errand := by
  obtain ⟨only, accepted⟩ := (fits_append_commonRules (clear_of_mem mem)).mp fits
  simp only [subcommands, List.mem_cons, List.not_mem_nil, or_false] at mem
  obtain rfl | rfl | rfl | rfl | rfl | rfl | rfl | rfl | rfl | rfl | rfl | rfl := mem
  -- the subcommands in the order of their list
  all_goals
    dsimp only at asked
    split at asked <;> try cases asked
  · exact .createOrg only
  · rw [nonEmpty_all, nonEmpty_all]
    exact .setTenant only
  · rw [all_eq_values]
    exact .createMetric only
  · rw [changesOf_eq only]
    exact .updateMetric only
  · exact .deleteMetric only
  · rename_i org metric field type typed
    have once : (given.values "type").length ≤ 1 := only.once _ (by decide)
    rw [last?_eq_head? once] at typed
    obtain ⟨name, first, typed⟩ := Option.map_eq_some_iff.mp typed
    obtain ⟨more, values⟩ := List.head?_eq_some_iff.mp first
    have alone : more = [] := by simpa [values] using once
    rw [alone] at values
    rw [all_eq_values]
    exact .createField only values (named_eq_ok.mp typed)
  · rw [changesOf_eq only]
    exact .updateField only
  · exact .deleteField only
  · exact .metrics only
  · exact .metric only
  · exact .tenant only
  · split at asked <;> cases asked
    exact .apply only (isPath_iff.mp ‹_›)

/-- What the words and options of a subcommand ask for is made of them. -/
lemma Asks.asked {name : String} (asks : Asks given name words errand) :
    ∃ command ∈ subcommands, command.name = name ∧ Fits (command.rules ++ commonRules) given
      ∧ words.length ≤ command.words ∧ command.errand ⟨given, words⟩ = some errand := by
  have find {command : Subcommand} (found : subcommands.find? (·.name == name) = some command)
      (only : given.Only (singlesOf command.rules) (listsOf command.rules))
      (accepts : ∀ rule ∈ command.rules, ∀ value ∈ given.values rule.name,
        rule.accepts value = true) (room : words.length ≤ command.words)
      (asked : command.errand ⟨given, words⟩ = some errand) :
      ∃ command ∈ subcommands, command.name = name ∧ Fits (command.rules ++ commonRules) given
        ∧ words.length ≤ command.words ∧ command.errand ⟨given, words⟩ = some errand := by
    obtain ⟨mem, named⟩ := subcommands_find?.mp found
    exact ⟨command, mem, named,
      (fits_append_commonRules (clear_of_mem mem)).mpr ⟨only, accepts⟩, room, asked⟩
  cases asks with
  | createOrg only => exact find rfl only nofun le_rfl rfl
  | setTenant only =>
    refine find rfl only (by simp [listRule]) le_rfl ?_
    dsimp only
    rw [nonEmpty_all, nonEmpty_all]
  | createMetric only =>
    refine find rfl only (by simp [listRule]) le_rfl ?_
    dsimp only
    rw [all_eq_values]
  | updateMetric only =>
    refine find rfl only (by simp [renameRules, listRule]) le_rfl ?_
    dsimp only
    rw [changesOf_eq only]
  | deleteMetric only => exact find rfl only nofun le_rfl rfl
  | @createField org metric field name type only typed named =>
    have read : FieldType.named name = .ok type := named_eq_ok.mpr named
    refine find rfl only ?_ le_rfl ?_
    · simp [typed, read, listRule, Except.toBool]
    · have last : (⟨given, [org, metric, field]⟩ : Arguments).last? "type" = some name := by
        rw [last?_eq_head? (only.once _ (by decide))]
        simp [typed]
      dsimp only
      rw [last, all_eq_values]
      simp [read]
  | updateField only =>
    refine find rfl only (by simp [renameRules, listRule]) le_rfl ?_
    dsimp only
    rw [changesOf_eq only]
  | deleteField only => exact find rfl only nofun le_rfl rfl
  | metrics only => exact find rfl only nofun le_rfl rfl
  | metric only => exact find rfl only nofun le_rfl rfl
  | tenant only => exact find rfl only nofun le_rfl rfl
  | apply only ne => exact find rfl only nofun le_rfl (if_pos (isPath_iff.mpr ne))

end Subcommands

/-! ## Command lines -/

section Lines

variable {config database : Option String} {arguments : List String} {line : Line}

/-- The rules of every subcommand are clear. -/
lemma clear_commonRules : Clear commonRules := by
  have clear := @clear_of_mem ⟨"create-org", 1, [], _⟩ (List.mem_cons_self ..)
  exact clear

/-- A path is chosen as it is read. -/
lemma pathOption_eq_ok {name : String} {outer inner : Given} {words : List String}
    {chosen : Option String} (once : (outer.values name).length ≤ 1)
    (once' : (inner.values name).length ≤ 1) :
    pathOption name config ⟨outer, []⟩ ⟨inner, words⟩ = .ok chosen
      ↔ Chosen config (outer.values name).head? (inner.values name).head? chosen := by
  have usable : config.any String.isEmpty = true ↔ config = some "" := by
    cases config <;> simp
  have chosen_iff (outer inner : Option String) : Chosen config outer inner chosen
      ↔ (config ≠ some "" ∨ outer.isSome ∧ inner.isSome) ∧ chosen = inner.or (outer.or config) :=
    ⟨fun c => ⟨c.usable, c.first⟩, fun ⟨usable, first⟩ => ⟨usable, first⟩⟩
  rw [pathOption, last?_eq_head? once, last?_eq_head? once', chosen_iff]
  by_cases empty : config = some ""
  · cases (outer.values name).head? <;> cases (inner.values name).head? <;>
      simp [empty, @eq_comm _ chosen]
  · have free : config.any String.isEmpty = false := Bool.eq_false_iff.mpr (mt usable.mp empty)
    cases (outer.values name).head? <;> cases (inner.values name).head? <;>
      simp [empty, free, @eq_comm _ chosen]

/-- The value of an option is the first among the arguments of the subcommand and before it. -/
lemma commonOption_eq_head? {name : String} {outer inner : Given} {words : List String}
    (once : (outer.values name).length ≤ 1) (once' : (inner.values name).length ≤ 1) :
    commonOption name ⟨outer, []⟩ ⟨inner, words⟩
      = (inner.values name ++ outer.values name).head? := by
  rw [commonOption, last?_eq_head? once, last?_eq_head? once', List.head?_append,
    Option.orElse_eq_or]

/-- Before a subcommand only the options of every subcommand fit. -/
lemma fits_commonRules {given : Given} : Fits commonRules given ↔ given.Only [] [] := by
  have rule := @fits_append_commonRules [] given clear_commonRules
  exact rule.trans (and_iff_left nofun)

section Parts

variable {outer inner : Given} {command : Subcommand} {words : List String}

/-- A line is put together from the options before the name of a subcommand and from the options
and words after it. -/
structure Line.Parts (config database : Option String) (line : Line) (outer : Given)
    (command : Subcommand) (inner : Given) (words : List String) : Prop where
  known : command ∈ subcommands
  outer_fits : Fits commonRules outer
  inner_fits : Fits (command.rules ++ commonRules) inner
  room : words.length ≤ command.words
  asked : command.errand ⟨inner, words⟩ = some line.errand
  configured : pathOption "config" config ⟨outer, []⟩ ⟨inner, words⟩ = .ok line.config
  stored : pathOption "db" database ⟨outer, []⟩ ⟨inner, words⟩ = .ok line.database
  retried : line.retries = (commonOption "retries" ⟨outer, []⟩ ⟨inner, words⟩).bind attempts?
  styled : line.style
    = ((commonOption "format" ⟨outer, []⟩ ⟨inner, words⟩).bind style?).getD .text

/-- A command line is read from front to end, and put together from its parts. -/
lemma parse_eq_ok_iff_parts : Line.parse config database arguments = .ok line
    ↔ ∃ front outer command rest inner words, arguments = front ++ command.name :: rest
      ∧ SpellsOptions front outer ∧ Spells rest inner words
      ∧ line.Parts config database outer command inner words := by
  have enough (front : List String) (name : String) (rest : List String) :
      rest.length < (front ++ name :: rest).length + 1 := by
    simp
    omega
  unfold Line.parse
  simp only [Except.bind_eq_ok, Prod.exists]
  constructor
  · rintro ⟨before, rest, leads, read⟩
    rw [leading_eq_ok clear_commonRules (Nat.lt_succ_self _)] at leads
    obtain ⟨front, outer, rfl, leads, fits, rfl, -⟩ := leads
    split at read
    case h_1 => cases read
    case h_2 name rest =>
    split at read
    case h_1 => cases read
    case h_2 command found =>
    obtain ⟨mem, rfl⟩ := subcommands_find?.mp found
    simp only [Except.bind_eq_ok, scan_eq_ok (clear_of_mem mem) (enough front _ rest)] at read
    obtain ⟨_, ⟨inner, words, spells, fits', room, rfl⟩, read⟩ := read
    split at read
    case h_1 => cases read
    case h_2 errand asked =>
    simp only [Except.bind_eq_ok, Except.pure_eq_ok] at read
    obtain ⟨config', configured, database', stored, rfl⟩ := read
    exact ⟨front, outer, command, rest, inner, words, rfl, leads, spells,
      ⟨mem, fits, fits', room, asked, configured, stored, rfl, rfl⟩⟩
  · rintro ⟨front, outer, command, rest, inner, words, rfl, leads, spells, parts⟩
    have word : ∀ argument ∈ (command.name :: rest).head?, IsWord argument := by
      rintro _ ⟨⟩
      exact isWord_name parts.known
    refine ⟨_, _, (leading_eq_ok clear_commonRules (Nat.lt_succ_self _)).mpr
      ⟨front, outer, rfl, leads, parts.outer_fits, rfl, word⟩, ?_⟩
    dsimp only
    rw [subcommands_find?.mpr ⟨parts.known, rfl⟩]
    simp only [Except.bind_eq_ok]
    refine ⟨_, (scan_eq_ok (clear_of_mem parts.known) (enough front _ rest)).mpr
      ⟨inner, words, spells, parts.inner_fits, parts.room, rfl⟩, ?_⟩
    rw [parts.asked]
    simp only [Except.bind_eq_ok, Except.pure_eq_ok]
    refine ⟨_, parts.configured, _, parts.stored, ?_⟩
    rw [← parts.retried, ← parts.styled]

/-- The number of attempts is an option of every subcommand. -/
lemma mem_retries : ⟨"retries", false, fun v => (attempts? v).isSome⟩ ∈ commonRules := by
  simp [commonRules]

/-- The style is an option of every subcommand. -/
lemma mem_format : ⟨"format", false, fun v => (style? v).isSome⟩ ∈ commonRules := by
  simp [commonRules]

/-- The first of some texts that are all accepted spells what it is read as. -/
lemma first_iff {α : Type} {spells : String → α → Prop} {read : String → Option α}
    {texts : List String} {a? : Option α}
    (reads : ∀ {text a}, read text = some a ↔ spells text a)
    (accepted : ∀ text ∈ texts, (read text).isSome = true) :
    First spells texts a? ↔ a? = texts.head?.bind read := by
  constructor
  · rintro (_ | spelled)
    · rfl
    · exact (reads.mpr spelled).symm
  · rintro rfl
    cases texts with
    | nil => exact .absent
    | cons text texts =>
      obtain ⟨a, eq⟩ := Option.isSome_iff_exists.mp (accepted text List.mem_cons_self)
      rw [List.head?_cons, Option.bind_some, eq]
      exact .present (reads.mp eq)

/-- An option of every subcommand is read as what the first of its values spells. -/
lemma first_commonOption {α : Type} {spells : String → α → Prop} {read : String → Option α}
    {a? : Option α} {rule : OptionRule} (common : rule ∈ commonRules)
    (reads : ∀ {text a}, read text = some a ↔ spells text a)
    (accepts : ∀ text, rule.accepts text = (read text).isSome)
    (mem : command ∈ subcommands) (fits : Fits commonRules outer)
    (fits' : Fits (command.rules ++ commonRules) inner) :
    First spells (inner.values rule.name ++ outer.values rule.name) a?
      ↔ a? = (commonOption rule.name ⟨outer, []⟩ ⟨inner, words⟩).bind read := by
  have single : ∀ rule ∈ commonRules, rule.repeatable = false := by simp [commonRules]
  have once := fits.once rule common (single rule common)
  have once' := fits'.once rule (List.mem_append_right _ common) (single rule common)
  rw [commonOption_eq_head? once once']
  refine first_iff reads (List.forall_mem_append.mpr ⟨fun text given => ?_, fun text given => ?_⟩)
  · rw [← accepts]
    exact fits'.accepts (clear_of_mem mem) (List.mem_append_right _ common) given
  · rw [← accepts]
    exact fits.accepts clear_commonRules common given

/-- A path of every subcommand is chosen as it is read. -/
lemma chosen_iff {name : String} {environment chosen : Option String} {singles lists : List String}
    (common : name ∈ commonNames) (only : outer.Only [] []) (only' : inner.Only singles lists) :
    Chosen environment (outer.values name).head? (inner.values name).head? chosen
      ↔ pathOption name environment ⟨outer, []⟩ ⟨inner, words⟩ = .ok chosen :=
  (pathOption_eq_ok (only.once name (List.mem_append_left _ common))
    (only'.once name (List.mem_append_left _ common))).symm

/-- A command line is read as what its arguments spell. -/
lemma parse_eq_ok : Line.parse config database arguments = .ok line
    ↔ Line.Spelled config database arguments line := by
  rw [parse_eq_ok_iff_parts]
  constructor
  · rintro ⟨front, outer, command, rest, inner, words, rfl, leads, spells, mem, fits, fits', room,
      asked, configured, stored, retried, styled⟩
    have only := fits_commonRules.mp fits
    have only' := ((fits_append_commonRules (clear_of_mem mem)).mp fits').1
    exact .intro leads only spells (asks_of_errand mem fits' asked)
      ((chosen_iff (by decide) only only').mpr configured)
      ((chosen_iff (by decide) only only').mpr stored)
      ((first_commonOption mem_retries attempts?_eq_some (fun _ => rfl) mem fits fits').mpr retried)
      ((first_commonOption mem_format style?_eq_some (fun _ => rfl) mem fits fits').mpr rfl) styled
  · rintro @⟨front, _, rest, outer, inner, words, style?, _, leads, only, spells, asks, configured,
      stored, retried, styled, shown⟩
    obtain ⟨command, mem, rfl, fits', room, asked⟩ := asks.asked
    have fits := fits_commonRules.mpr only
    have only' := ((fits_append_commonRules (clear_of_mem mem)).mp fits').1
    refine ⟨front, outer, command, rest, inner, words, rfl, leads, spells, mem, fits, fits', room,
      asked, (chosen_iff (by decide) only only').mp configured,
      (chosen_iff (by decide) only only').mp stored,
      (first_commonOption mem_retries attempts?_eq_some (fun _ => rfl) mem fits fits').mp retried,
      ?_⟩
    rw [shown,
      (first_commonOption mem_format style?_eq_some (fun _ => rfl) mem fits fits').mp styled]

end Parts

end Lines

end MetricRegistry.Command
