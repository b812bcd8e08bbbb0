import Mathlib.Data.List.TakeWhile
import MetricRegistry.Command.Arguments
import MetricRegistry.Proofs.Outcome

/-!
# How arguments are spelled

Arguments give options, in one argument or in two, and words, up to a divider after which there are
only words. `Spells` says which options and words some arguments give, and `Fits` which options the
rules of a command allow. `leading_eq_ok` and `scan_eq_ok` say that this is what the arguments are
read as: what is read is spelled, by induction on the rounds of the loops, and what is spelled is
read, by induction on the spelling. Both loops step over an option in the same way (`overOption`).
-/

namespace MetricRegistry.Command

/-! ## Grammar -/

/-- Options with their values, in the order in which they are given. -/
abbrev Given := List (String × String)

/-- The values that are given for an option. -/
def Given.values (given : Given) (name : String) : List String :=
  given.filterMap fun option => if option.1 = name then some option.2 else none

/-- A text that is no option: it is a dash or does not start with one. -/
def IsWord (text : String) : Prop :=
  text = "-" ∨ text.toList.head? ≠ some '-'

/-- Arguments spell an option. -/
inductive SpellsOption : List String → String × String → Prop where
  | joined {name value} :
    name ≠ "" →
    '=' ∉ name.toList →
    SpellsOption ["--" ++ name ++ "=" ++ value] (name, value)
  | apart {name value} :
    name ≠ "" →
    '=' ∉ name.toList →
    IsWord value →
    SpellsOption ["--" ++ name, value] (name, value)

/-- Arguments spell options and nothing else. -/
inductive SpellsOptions : List String → Given → Prop where
  | nil :
    SpellsOptions [] []
  | option {front option rest given} :
    SpellsOption front option →
    SpellsOptions rest given →
    SpellsOptions (front ++ rest) (option :: given)

/-- Arguments spell options and words. -/
inductive Spells : List String → Given → List String → Prop where
  | nil :
    Spells [] [] []
  | option {front option rest given words} :
    SpellsOption front option →
    Spells rest given words →
    Spells (front ++ rest) (option :: given) words
  | word {text rest given words} :
    IsWord text →
    Spells rest given words →
    Spells (text :: rest) given (text :: words)
  | divider {words} :
    Spells ("--" :: words) [] words

/-- The rules of a command allow the options that are given: each has a rule that accepts its value,
and only some may be repeated. -/
structure Fits (rules : List OptionRule) (given : Given) : Prop where
  known : ∀ option ∈ given, ∃ rule ∈ rules, rule.name = option.1 ∧ rule.accepts option.2 = true
  once : ∀ rule ∈ rules, rule.repeatable = false → (given.values rule.name).length ≤ 1

/-- No two rules are about one option, and none about one that every command has or that has no
name. -/
structure Clear (rules : List OptionRule) : Prop where
  distinct : rules.Pairwise fun rule rule' => rule.name ≠ rule'.name
  plain : ∀ rule ∈ rules, rule.name ∉ ["", "help", "version"]

/-! ## Shapes -/

section Shapes

variable {argument name text value : String}

/-- A text that is no option is a word. -/
lemma shapeOf_word (word : IsWord text) : shapeOf text = .word text := by
  obtain rfl | other := word
  · rfl
  · unfold shapeOf
    split <;> simp_all

/-- After two dashes stands the name of an option and, after an equals sign, its value. -/
lemma shapeOf_dashes {cs : List Char} (text : argument.toList = '-' :: '-' :: cs) (ne : cs ≠ []) :
    shapeOf argument = match cs.dropWhile (· != '=') with
      | [] => .option (String.ofList cs) none
      | _ :: value =>
        .option (String.ofList (cs.takeWhile (· != '='))) (some (String.ofList value)) := by
  obtain ⟨c, cs, rfl⟩ := List.exists_cons_of_ne_nil ne
  rw [shapeOf, text]
  rfl

/-- Two dashes with a name and a value are an option with its value. -/
lemma shapeOf_joined (plain : '=' ∉ name.toList) :
    shapeOf ("--" ++ name ++ "=" ++ value) = .option name (some value) := by
  have inside : ∀ c ∈ name.toList, (c != '=') = true := fun c mem =>
    bne_iff_ne.mpr fun eq => plain (eq ▸ mem)
  have text : ("--" ++ name ++ "=" ++ value).toList
      = '-' :: '-' :: (name.toList ++ '=' :: value.toList) := by
    simp
  rw [shapeOf_dashes text (by simp), List.dropWhile_append_of_pos inside,
    List.takeWhile_append_of_pos inside]
  simp

/-- Two dashes with a name alone are an option without its value. -/
lemma shapeOf_apart (named : name ≠ "") (plain : '=' ∉ name.toList) :
    shapeOf ("--" ++ name) = .option name none := by
  have inside : ∀ c ∈ name.toList, (c != '=') = true := fun c mem =>
    bne_iff_ne.mpr fun eq => plain (eq ▸ mem)
  have text : ("--" ++ name).toList = '-' :: '-' :: name.toList := by simp
  rw [shapeOf_dashes text (by simpa using named), ← List.append_nil name.toList,
    List.dropWhile_append_of_pos inside]
  simp

/-- What is read as a word is one. -/
lemma isWord_of_shapeOf (shape : shapeOf argument = .word text) :
    text = argument ∧ IsWord argument := by
  unfold shapeOf at shape
  split at shape
  case h_1 => cases shape
  case h_2 =>
    split at shape <;> cases shape
  case h_3 => cases shape
  case h_4 two three four =>
    cases shape
    refine ⟨rfl, ?_⟩
    cases chars : argument.toList with
    | nil => exact .inr (by simp [chars])
    | cons c cs =>
      by_cases dash : c = '-'
      · subst dash
        cases cs with
        | nil => exact .inl (String.ext chars)
        | cons d ds => exact (four d ds chars).elim
      · exact .inr (by simpa [chars] using dash)

/-- What is read as the divider is the two dashes. -/
lemma eq_of_shapeOf_divider (shape : shapeOf argument = .divider) : argument = "--" := by
  unfold shapeOf at shape
  split at shape
  case h_1 chars => exact String.ext chars
  case h_2 =>
    split at shape <;> cases shape
  case h_3 => cases shape
  case h_4 => cases shape

/-- What is read as an option is spelled like one. -/
lemma spelled_of_shapeOf {given : Option String} (shape : shapeOf argument = .option name given) :
    '=' ∉ name.toList ∧ argument = "--" ++ name ++ (given.elim "" ("=" ++ ·)) := by
  unfold shapeOf at shape
  split at shape
  case h_1 => cases shape
  case h_2 cs _ chars =>
    have split := List.takeWhile_append_dropWhile (p := (· != '=')) (l := cs)
    have inside : '=' ∉ cs.takeWhile (· != '=') := fun mem =>
      absurd (List.mem_takeWhile_imp mem) (by decide)
    split at shape
    case h_1 none =>
      cases shape
      rw [none, List.append_nil] at split
      refine ⟨by rwa [String.toList_ofList, ← split], String.ext ?_⟩
      simpa using chars
    case h_2 c value some =>
      cases shape
      have starts : c = '=' := by
        have stop := List.head?_dropWhile_not (· != '=') cs
        simpa [some] using stop
      subst starts
      refine ⟨by rwa [String.toList_ofList], String.ext ?_⟩
      rw [some] at split
      simp [chars, split]
  case h_3 => cases shape
  case h_4 => cases shape

end Shapes

/-! ## Options -/

namespace Fits

variable {rules : List OptionRule} {given more : Given}

/-- The options before some others are allowed if all are. -/
lemma front (fits : Fits rules (given ++ more)) : Fits rules given where
  known option mem := fits.known option (List.mem_append_left _ mem)
  once rule mem single := by
    have all := fits.once rule mem single
    rw [Given.values, List.filterMap_append, List.length_append] at all
    exact Nat.le_of_add_right_le all

/-- No options at all are allowed. -/
lemma nil : Fits rules [] :=
  ⟨nofun, fun _ _ _ => Nat.zero_le 1⟩

end Fits

section Options

variable {rules : List OptionRule} {a a' : Arguments} {name value : String}

/-- The values of an option are those that are given for it. -/
lemma all_eq_values (a : Arguments) (name : String) : a.all name = Given.values a.options name := by
  simp [Arguments.all, Given.values, ← List.filterMap_eq_map, List.filterMap_filter]

/-- Among things with distinct names one is found by its name. -/
lemma find?_named_eq_some {α : Type} {xs : List α} {x : α} {nameOf : α → String}
    (distinct : xs.Pairwise fun x y => nameOf x ≠ nameOf y) {name : String} :
    xs.find? (nameOf · == name) = some x ↔ x ∈ xs ∧ nameOf x = name := by
  constructor
  · intro found
    exact ⟨List.mem_of_find?_eq_some found, by simpa using List.find?_some found⟩
  · rintro ⟨mem, rfl⟩
    induction xs with
    | nil => cases mem
    | cons first xs ih =>
      obtain ⟨others, distinct⟩ := List.pairwise_cons.mp distinct
      obtain rfl | mem := List.mem_cons.mp mem
      · simp
      · rw [List.find?_cons_of_neg (by simpa using others x mem)]
        exact ih distinct mem

/-- In clear rules there is one rule for an option at most. -/
lemma Clear.find?_eq_some (clear : Clear rules) {rule : OptionRule} :
    rules.find? (·.name == name) = some rule ↔ rule ∈ rules ∧ rule.name = name :=
  find?_named_eq_some clear.distinct

/-- Two clear rules for one option are the same. -/
lemma Clear.unique (clear : Clear rules) {rule rule' : OptionRule} (mem : rule ∈ rules)
    (mem' : rule' ∈ rules) (named : rule'.name = rule.name) : rule' = rule :=
  Option.some.inj ((clear.find?_eq_some.mpr ⟨mem', named⟩).symm.trans
    (clear.find?_eq_some.mpr ⟨mem, rfl⟩))

/-- The values of an option when one more option is given. -/
lemma Given.values_concat (given : Given) (name other value : String) :
    Given.values (given ++ [(name, value)]) other
      = given.values other ++ if name = other then [value] else [] := by
  rw [Given.values, List.filterMap_append]
  by_cases same : name = other <;> simp [Given.values, same]

/-- One more option fits if its rule accepts the value and it may be repeated or is new. -/
lemma Clear.fits_concat (clear : Clear rules) {given : Given} (fits : Fits rules given)
    {rule : OptionRule} (mem : rule ∈ rules) :
    Fits rules (given ++ [(rule.name, value)])
      ↔ (rule.repeatable = true ∨ given.values rule.name = []) ∧ rule.accepts value = true := by
  constructor
  · intro fits'
    obtain ⟨rule', mem', named, accepts⟩ := fits'.known (rule.name, value) (by simp)
    obtain rfl := clear.unique mem mem' named
    refine ⟨or_iff_not_imp_left.mpr fun single => ?_, accepts⟩
    have once := fits'.once rule' mem (by simpa using single)
    rw [Given.values_concat, if_pos rfl] at once
    simpa using once
  · rintro ⟨room, accepts⟩
    refine ⟨fun option mem' => ?_, fun rule' mem' single => ?_⟩
    · obtain old | new := List.mem_append.mp mem'
      · exact fits.known option old
      · obtain rfl := List.mem_singleton.mp new
        exact ⟨rule, mem, rfl, accepts⟩
    · rw [Given.values_concat]
      split
      case isTrue same =>
        obtain rfl := clear.unique mem mem' same.symm
        -- a rule that allows one value has none yet
        rw [room.resolve_left (by simp [single])]
        exact Nat.le_refl 1
      case isFalse =>
        rw [List.append_nil]
        exact fits.once rule' mem' single

/-- An option is added if the rules allow it beside those before it. -/
lemma addOption_eq_ok (clear : Clear rules) (fits : Fits rules a.options) :
    addOption rules name value a = .ok a'
      ↔ Fits rules (a.options ++ [(name, value)])
        ∧ a' = { a with options := a.options ++ [(name, value)] } := by
  unfold addOption
  split
  case h_1 missing =>
    simp only [reduceCtorEq, false_iff, not_and]
    intro fits'
    obtain ⟨rule, mem, named, -⟩ := fits'.known (name, value) (by simp)
    rw [clear.find?_eq_some.mpr ⟨mem, named⟩] at missing
    cases missing
  case h_2 rule found =>
    obtain ⟨mem, rfl⟩ := clear.find?_eq_some.mp found
    have fresh : (a.last? rule.name).isSome = !(Given.values a.options rule.name).isEmpty := by
      rw [Arguments.last?, all_eq_values]
      cases Given.values a.options rule.name <;> simp
    rw [clear.fits_concat fits mem, fresh]
    cases rule.repeatable <;> cases Given.values a.options rule.name <;>
      cases rule.accepts value <;> simp [eq_comm]

/-- The value of an option is given with it, or is the word that follows. -/
lemma optionValue_eq_ok {given : Option String} {rest rest' : List String} :
    optionValue given rest = .ok (value, rest')
      ↔ given = some value ∧ rest' = rest
        ∨ given = none ∧ rest = value :: rest' ∧ IsWord value := by
  unfold optionValue
  split
  case h_1 => simp [eq_comm]
  case h_2 => simp
  case h_3 argument rest =>
    split
    case h_1 word shape =>
      obtain ⟨rfl, isWord⟩ := isWord_of_shapeOf shape
      simp only [Except.ok.injEq, Prod.mk.injEq, reduceCtorEq, false_and, true_and, false_or,
        List.cons.injEq]
      constructor
      · rintro ⟨rfl, rfl⟩
        exact ⟨⟨rfl, rfl⟩, isWord⟩
      · rintro ⟨⟨rfl, rfl⟩, -⟩
        exact ⟨rfl, rfl⟩
    case h_2 other =>
      simp only [reduceCtorEq, false_and, true_and, false_or, false_iff, List.cons.injEq]
      rintro ⟨⟨rfl, -⟩, isWord⟩
      exact other _ (shapeOf_word isWord)

/-- Only asking for the usage or for the version stops at an option. -/
lemma asked_eq_none {given : Option String} (plain : name ∉ ["", "help", "version"])
    (hasVersion : Bool) : asked hasVersion (.option name given) = none := by
  simp only [List.mem_cons, List.not_mem_nil, or_false, not_or] at plain
  unfold asked
  split <;> simp_all

/-- The step of both loops over an option: `next` reads what follows it. -/
def overOption {α : Type} (rules : List OptionRule) (hasVersion : Bool) (name : String)
    (given : Option String) (a : Arguments) (rest : List String)
    (next : Arguments → List String → Except Stop α) : Except Stop α :=
  match asked hasVersion (.option name given) with
  | some stop => .error stop
  | none => do
    if (rules.find? (·.name == name)).isNone then throw .usage
    let (value, rest) ← optionValue given rest
    next (← addOption rules name value a) rest

/-- An option that is stepped over is spelled there and allowed, and what follows is read. -/
lemma spells_of_overOption {α : Type} (clear : Clear rules) (fits : Fits rules a.options)
    {argument : String} {given : Option String} (shape : shapeOf argument = .option name given)
    {hasVersion : Bool} {rest : List String} {next : Arguments → List String → Except Stop α}
    {result : α} (read : overOption rules hasVersion name given a rest next = .ok result) :
    ∃ front option rest', SpellsOption front option ∧ argument :: rest = front ++ rest'
      ∧ Fits rules (a.options ++ [option])
      ∧ next { a with options := a.options ++ [option] } rest' = .ok result := by
  obtain ⟨plain, spelled⟩ := spelled_of_shapeOf shape
  unfold overOption at read
  split at read
  case h_1 => cases read
  case h_2 =>
  split at read
  case isTrue => cases read
  case isFalse known =>
  obtain ⟨rule, found⟩ := Option.ne_none_iff_exists'.mp (mt Option.isNone_iff_eq_none.mpr known)
  obtain ⟨mem, named⟩ := clear.find?_eq_some.mp found
  have ne : name ≠ "" := fun empty => clear.plain rule mem (by simp [named, empty])
  simp only [Except.bind_eq_ok, Prod.exists, optionValue_eq_ok, addOption_eq_ok clear fits] at read
  obtain ⟨value, rest', valued, _, ⟨fits', rfl⟩, read⟩ := read
  rcases valued with ⟨rfl, rfl⟩ | ⟨rfl, rfl, word⟩
  · refine ⟨_, (name, value), rest', .joined ne plain, ?_, fits', read⟩
    rw [spelled]
    simp [String.append_assoc]
  · refine ⟨_, (name, value), rest', .apart ne plain word, ?_, fits', read⟩
    rw [spelled]
    simp

/-- An option that is spelled and that the rules allow is stepped over. -/
lemma SpellsOption.stepped {α : Type} (clear : Clear rules) {front : List String}
    {option : String × String} (spells : SpellsOption front option)
    (fits : Fits rules (a.options ++ [option])) (hasVersion : Bool) (rest : List String)
    (next : Arguments → List String → Except Stop α) :
    ∃ argument more given, front = argument :: more
      ∧ shapeOf argument = .option option.1 given
      ∧ overOption rules hasVersion option.1 given a (more ++ rest) next
        = next { a with options := a.options ++ [option] } rest := by
  obtain ⟨rule, mem, named, -⟩ := fits.known option (by simp)
  have known := clear.find?_eq_some.mpr ⟨mem, named⟩
  have plain : option.1 ∉ ["", "help", "version"] := named ▸ clear.plain rule mem
  have added : addOption rules option.1 option.2 a
      = .ok { a with options := a.options ++ [option] } :=
    (addOption_eq_ok clear fits.front).mpr ⟨fits, rfl⟩
  -- what is left is the value, which stands in the argument or is the next one
  obtain ⟨argument, more, given, rfl, shape, valued⟩ : ∃ argument more given,
      front = argument :: more ∧ shapeOf argument = .option option.1 given
        ∧ optionValue given (more ++ rest) = .ok (option.2, rest) := by
    cases spells with
    | joined _ free =>
      exact ⟨_, [], _, rfl, shapeOf_joined free, optionValue_eq_ok.mpr (.inl ⟨rfl, rfl⟩)⟩
    | apart ne free word =>
      exact ⟨_, _, none, rfl, shapeOf_apart ne free, optionValue_eq_ok.mpr (.inr ⟨rfl, rfl, word⟩)⟩
  refine ⟨argument, more, given, rfl, shape, ?_⟩
  rw [overOption, asked_eq_none plain, known, valued]
  exact congrArg (· >>= (next · rest)) added

/-- What is read up to the first word are options, which are added to those before. -/
lemma spells_of_leading (clear : Clear rules) {rounds : ℕ} {arguments rest : List String}
    (fits : Fits rules a.options) (read : leading rules rounds a arguments = .ok (a', rest)) :
    ∃ front given, arguments = front ++ rest ∧ SpellsOptions front given
      ∧ Fits rules (a.options ++ given) ∧ a' = { a with options := a.options ++ given }
      ∧ ∀ argument ∈ rest.head?, IsWord argument := by
  induction rounds generalizing a arguments with
  | zero => cases read
  | succ rounds ih =>
    cases arguments with
    | nil =>
      cases read
      exact ⟨[], [], rfl, .nil, by simpa using fits, by simp, by simp⟩
    | cons argument arguments =>
      rw [leading] at read
      split at read
      case h_1 text shape =>
        cases read
        obtain ⟨-, word⟩ := isWord_of_shapeOf shape
        refine ⟨[], [], rfl, .nil, by simpa using fits, by simp, ?_⟩
        rintro _ ⟨⟩
        exact word
      case h_2 name given shape =>
        obtain ⟨front, option, rest', first, split, fits', read⟩ :=
          spells_of_overOption clear fits shape read
        obtain ⟨front', given', rfl, spells, fits'', rfl, word⟩ := ih fits' read
        refine ⟨front ++ front', option :: given', ?_, .option first spells, ?_, ?_, word⟩
        · rw [split, List.append_assoc]
        · simpa using fits''
        · simp
      case h_3 => cases read

/-- Options that the rules allow are read up to the first word. -/
lemma leading_of_spells (clear : Clear rules) {front : List String} {given : Given}
    (spells : SpellsOptions front given) {rounds : ℕ} {rest : List String}
    (enough : (front ++ rest).length < rounds) (fits : Fits rules (a.options ++ given))
    (word : ∀ argument ∈ rest.head?, IsWord argument) :
    leading rules rounds a (front ++ rest)
      = .ok ({ a with options := a.options ++ given }, rest) := by
  induction spells generalizing a rounds with
  | nil =>
    obtain ⟨rounds, rfl⟩ := Nat.exists_eq_succ_of_ne_zero (Nat.ne_zero_of_lt enough)
    cases rest with
    | nil => simp [leading]
    | cons argument rest => simp [leading, shapeOf_word (word argument rfl)]
  | @option front option rest' given first _ ih =>
    obtain ⟨rounds, rfl⟩ := Nat.exists_eq_succ_of_ne_zero (Nat.ne_zero_of_lt enough)
    have fits' : Fits rules ((a.options ++ [option]) ++ given) := by simpa using fits
    obtain ⟨argument, more, value, rfl, shape, step⟩ :=
      first.stepped clear fits'.front true (rest' ++ rest) (leading rules rounds)
    have fewer : (rest' ++ rest).length < rounds := by simp at enough ⊢; omega
    have next := ih (a := { a with options := a.options ++ [option] }) fewer fits'
    rw [List.append_assoc, List.cons_append, leading]
    simp only [shape]
    refine step.trans (next.trans ?_)
    simp

/-- What a divider leaves are words. -/
lemma addWords_eq_ok {most : ℕ} {words : List String} :
    addWords most words a = .ok a'
      ↔ (a.words ++ words).length ≤ most ∧ a' = { a with words := a.words ++ words } := by
  rw [addWords, List.length_append]
  split <;> simp [*, eq_comm]

/-- What is read to the end are options and words, which are added to those before. -/
lemma spells_of_scan (clear : Clear rules) {rounds most : ℕ} {arguments : List String}
    (fits : Fits rules a.options) (room : a.words.length ≤ most)
    (read : scan rules most rounds a arguments = .ok a') :
    ∃ given words, Spells arguments given words ∧ Fits rules (a.options ++ given)
      ∧ (a.words ++ words).length ≤ most ∧ a' = ⟨a.options ++ given, a.words ++ words⟩ := by
  induction rounds generalizing a arguments with
  | zero => cases read
  | succ rounds ih =>
    cases arguments with
    | nil =>
      cases read
      exact ⟨[], [], .nil, by simpa using fits, by simpa using room, by simp⟩
    | cons argument arguments =>
      rw [scan] at read
      split at read
      case h_1 text shape =>
        obtain ⟨rfl, word⟩ := isWord_of_shapeOf shape
        simp only [Except.bind_eq_ok, addWords_eq_ok] at read
        obtain ⟨_, ⟨room', rfl⟩, read⟩ := read
        obtain ⟨given, words, spells, fits', room'', rfl⟩ :=
          ih (a := ⟨a.options, a.words ++ [text]⟩) fits room' read
        exact ⟨given, _, .word word spells, fits', by simpa using room'', by simp⟩
      case h_2 shape =>
        -- after the divider all arguments are words
        obtain rfl := eq_of_shapeOf_divider shape
        obtain ⟨room', rfl⟩ := addWords_eq_ok.mp read
        exact ⟨[], arguments, .divider, by simpa using fits, room', by simp⟩
      case h_3 name given shape =>
        obtain ⟨front, option, rest, first, split, fits', read⟩ :=
          spells_of_overOption clear fits shape read
        obtain ⟨given', words, spells, fits'', room', rfl⟩ := ih (a := ⟨_, _⟩) fits' room read
        refine ⟨option :: given', words, ?_, by simpa using fits'', room', by simp⟩
        rw [split]
        exact .option first spells
      case h_4 => cases read

/-- Options and words that the rules allow are read to the end. -/
lemma scan_of_spells (clear : Clear rules) {arguments words : List String} {given : Given}
    (spells : Spells arguments given words) {rounds most : ℕ}
    (enough : arguments.length < rounds) (fits : Fits rules (a.options ++ given))
    (room : (a.words ++ words).length ≤ most) :
    scan rules most rounds a arguments = .ok ⟨a.options ++ given, a.words ++ words⟩ := by
  induction spells generalizing a rounds with
  | nil =>
    obtain ⟨rounds, rfl⟩ := Nat.exists_eq_succ_of_ne_zero (Nat.ne_zero_of_lt enough)
    simp [scan]
  | @option front option rest given words first _ ih =>
    obtain ⟨rounds, rfl⟩ := Nat.exists_eq_succ_of_ne_zero (Nat.ne_zero_of_lt enough)
    have fits' : Fits rules ((a.options ++ [option]) ++ given) := by simpa using fits
    obtain ⟨argument, more, value, rfl, shape, step⟩ :=
      first.stepped clear fits'.front false rest (scan rules most rounds)
    have fewer : rest.length < rounds := by simp at enough; omega
    have next := ih (a := { a with options := a.options ++ [option] }) fewer fits' room
    rw [List.cons_append, scan]
    simp only [shape]
    refine step.trans (next.trans ?_)
    simp
  | @word text rest given words word _ ih =>
    obtain ⟨rounds, rfl⟩ := Nat.exists_eq_succ_of_ne_zero (Nat.ne_zero_of_lt enough)
    have room' : ((a.words ++ [text]) ++ words).length ≤ most := by simpa using room
    have first : (a.words ++ [text]).length ≤ most := by
      rw [List.length_append] at room'
      exact Nat.le_of_add_right_le room'
    have next := ih (a := { a with words := a.words ++ [text] }) (Nat.lt_of_succ_lt_succ enough)
      fits room'
    rw [scan, shapeOf_word word]
    simp only [addWords_eq_ok.mpr ⟨first, rfl⟩]
    refine next.trans ?_
    simp
  | divider =>
    obtain ⟨rounds, rfl⟩ := Nat.exists_eq_succ_of_ne_zero (Nat.ne_zero_of_lt enough)
    rw [List.append_nil]
    exact addWords_eq_ok.mpr ⟨room, rfl⟩

/-- The options at the front of some arguments are read up to the first word. -/
lemma leading_eq_ok (clear : Clear rules) {rounds : ℕ} {arguments rest : List String}
    (enough : arguments.length < rounds) :
    leading rules rounds {} arguments = .ok (a, rest)
      ↔ ∃ front given, arguments = front ++ rest ∧ SpellsOptions front given ∧ Fits rules given
        ∧ a = ⟨given, []⟩ ∧ ∀ argument ∈ rest.head?, IsWord argument := by
  constructor
  · intro read
    simpa using spells_of_leading clear .nil read
  · rintro ⟨front, given, rfl, spells, fits, rfl, word⟩
    exact leading_of_spells clear spells enough fits word

/-- The options and words of some arguments are read to the end. -/
lemma scan_eq_ok (clear : Clear rules) {rounds most : ℕ} {arguments : List String}
    (enough : arguments.length < rounds) :
    scan rules most rounds {} arguments = .ok a
      ↔ ∃ given words, Spells arguments given words ∧ Fits rules given ∧ words.length ≤ most
        ∧ a = ⟨given, words⟩ := by
  constructor
  · intro read
    simpa using spells_of_scan clear .nil (Nat.zero_le most) read
  · rintro ⟨given, words, spells, fits, room, rfl⟩
    exact scan_of_spells clear spells enough fits room

end Options

end MetricRegistry.Command
