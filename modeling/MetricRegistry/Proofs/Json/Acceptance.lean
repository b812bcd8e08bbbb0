import Mathlib.Data.List.TakeWhile
import MetricRegistry.Json.Record
import MetricRegistry.Proofs.Json.Tokens
import MetricRegistry.Proofs.Outcome

/-!
# Readers take JSON

Whatever a reader takes off a text for a value is spelled by the grammar (`Strict`), and so is what
`skipValue` passes over. The lemmas follow the readers: strings and numerals, then the loops that
read arrays and objects, then records.
-/

namespace MetricRegistry.Json
open Ascii

variable {α σ ν : Type}

/-! ## Strings -/

/-- A string goes on to its closing quote, after which the rest comes. -/
def Closes (s rest : List UInt8) : Prop :=
  ∃ t : StringText, s = t.1 ++ quote :: rest

namespace Closes

variable {s rest : List UInt8}

/-- A quote closes a string. -/
lemma nil : Closes (quote :: rest) rest :=
  ⟨⟨[], .nil⟩, rfl⟩

/-- A plain byte may stand in a string. -/
lemma plain {b : UInt8} (plain : IsPlain b) (closes : Closes s rest) : Closes (b :: s) rest := by
  obtain ⟨⟨body, string⟩, rfl⟩ := closes
  exact ⟨⟨b :: body, .plain plain string⟩, rfl⟩

/-- A short escape may stand in a string. -/
lemma short {e : UInt8} (short : (shortEscape? e).isSome = true) (closes : Closes s rest) :
    Closes (backslash :: e :: s) rest := by
  obtain ⟨⟨body, string⟩, rfl⟩ := closes
  exact ⟨⟨backslash :: e :: body, .short short string⟩, rfl⟩

/-- The escape of a code unit may stand in a string. -/
lemma unit {a b c d : UInt8} (hex : (hex4? a b c d).isSome = true) (closes : Closes s rest) :
    Closes (backslash :: lowerU :: a :: b :: c :: d :: s) rest := by
  obtain ⟨⟨body, string⟩, rfl⟩ := closes
  exact ⟨⟨backslash :: lowerU :: a :: b :: c :: d :: body, .unit hex string⟩, rfl⟩

end Closes

/-- A byte that is neither the quote nor starts an escape stands for itself. -/
lemma isPlain_of {b : UInt8} {s : List UInt8} (noQuote : b = quote → False)
    (noEnd : b = backslash → s = [] → False)
    (noEscape : ∀ e s', b = backslash → s = e :: s' → False) (noControl : ¬ b < space) :
    IsPlain b := by
  refine ⟨noQuote, fun eq => ?_, noControl⟩
  cases s with
  | nil => exact noEnd eq rfl
  | cons e s => exact noEscape e s eq rfl

/-- Bytes are put in front of those that were read. -/
lemma prependBytes_eq_ok {bytes x s : List UInt8} {r : Except Fault (List UInt8 × List UInt8)} :
    prependBytes bytes r = .ok (x, s) ↔ ∃ more, r = .ok (more, s) ∧ bytes ++ more = x := by
  rcases r with e | ⟨more, rest⟩
  · simp [prependBytes, Except.map]
  · simp [prependBytes, Except.map, and_comm]

/-- What is read as the rest of a string closes it. -/
lemma stringBytes_closes {s x r : List UInt8} (read : stringBytes s = .ok (x, r)) :
    Closes s r := by
  fun_induction stringBytes s generalizing x with
  | case2 s =>
    cases read
    exact .nil
  | case7 a b c d unit hex _ _ a' b' c' d' s unit' hex' _ ih =>
    obtain ⟨more, read, -⟩ := prependBytes_eq_ok.mp read
    exact .unit (Option.isSome_of_eq_some hex) (.unit (Option.isSome_of_eq_some hex') (ih read))
  | case13 a b c d s unit hex _ _ ih =>
    obtain ⟨more, read, -⟩ := prependBytes_eq_ok.mp read
    exact .unit (Option.isSome_of_eq_some hex) (ih read)
  | case15 e s _ _ b escape ih =>
    obtain ⟨more, read, -⟩ := prependBytes_eq_ok.mp read
    exact .short (Option.isSome_of_eq_some escape) (ih read)
  | case18 b s noQuote noEnd _ _ noEscape noControl ih =>
    obtain ⟨more, read, -⟩ := prependBytes_eq_ok.mp read
    exact .plain (isPlain_of noQuote noEnd noEscape noControl) (ih read)
  | _ => cases read

/-- What is read as the rest of a string that is a text closes it. -/
lemma string_closes {s r : List UInt8} {x : String} (read : string s = .ok (x, r)) :
    Closes s r := by
  simp only [string, Except.bind_eq_ok, Prod.exists] at read
  obtain ⟨bytes, s', read, text⟩ := read
  split at text
  · cases text
    exact stringBytes_closes read
  · cases text

/-- What is passed over as the rest of a string closes it. -/
lemma skipString_closes {s r : List UInt8} (read : skipString s = .ok r) : Closes s r := by
  fun_induction skipString s with
  | case2 s =>
    cases read
    exact .nil
  | case4 a b c d s hex ih => exact .unit hex (ih read)
  | case7 e s _ _ escape ih => exact .short escape (ih read)
  | case10 b s noQuote noEnd _ _ noEscape noControl ih =>
    exact .plain (isPlain_of noQuote noEnd noEscape noControl) (ih read)
  | _ => cases read

/-- A text as it is written. -/
def StringText.of (text : String) : StringText where
  val := text.toList.flatMap quotedChar
  property := by
    obtain ⟨⟨body, string⟩, eq⟩ := string_closes (string_quoted text [])
    rwa [List.append_cancel_right eq]

/-- A text is named by the string that writes it. -/
lemma names_of (text : String) : Names string (.of text) text :=
  string_quoted text

/-! ## Numerals -/

section Numerals

variable {atEnd : Fault} {s r : List UInt8}

/-- Some digits that are read are digits, and stand in front of what is left. -/
lemma someDigits_digits {ds : List UInt8} (read : someDigits atEnd s = .ok (ds, r)) :
    Digits ds ∧ s = ds ++ r := by
  cases s with
  | nil => cases read
  | cons b s =>
    simp only [someDigits] at read
    split at read
    case isFalse => cases read
    case isTrue digit =>
      cases read
      refine ⟨⟨?_, fun b mem => List.mem_takeWhile_imp mem⟩,
        List.takeWhile_append_dropWhile.symm⟩
      simp [digit]

/-- A whole part that is read is one, and stands in front of what is left. -/
lemma wholePart_body {whole : List UInt8} (read : wholePart atEnd s = .ok (whole, r)) :
    WholeBody whole ∧ s = whole ++ r := by
  cases s with
  | nil => cases read
  | cons b s =>
    simp only [wholePart] at read
    split at read
    case isTrue isZero =>
      obtain rfl := eq_of_beq isZero
      cases s with
      | nil =>
        cases read
        exact ⟨.lone, rfl⟩
      | cons d s =>
        dsimp only at read
        split at read
        · cases read
        · cases read
          exact ⟨.lone, rfl⟩
    case isFalse noZero =>
      split at read
      case isFalse => cases read
      case isTrue digit =>
        cases read
        refine ⟨.digits (by simpa using noZero) ⟨by simp, ?_⟩, ?_⟩
        · exact List.forall_mem_cons.mpr ⟨digit, fun b mem => List.mem_takeWhile_imp mem⟩
        · rw [List.cons_append, List.takeWhile_append_dropWhile]

/-- A fraction that is read is one or nothing, and stands in front of what is left. -/
lemma fractionPart_body {fraction : List UInt8} (read : fractionPart atEnd s = .ok (fraction, r)) :
    ∃ body, FractionBody body ∧ s = body ++ r := by
  cases s with
  | nil =>
    cases read
    exact ⟨[], .none, rfl⟩
  | cons b s =>
    simp only [fractionPart] at read
    split at read
    case isTrue isDot =>
      obtain rfl := eq_of_beq isDot
      obtain ⟨digits, rfl⟩ := someDigits_digits read
      exact ⟨dot :: fraction, .digits digits, rfl⟩
    case isFalse =>
      cases read
      exact ⟨[], .none, rfl⟩

/-- A sign that may be read is one or nothing, and stands in front of what is left. -/
lemma optionalSign_eq (s : List UInt8) :
    ∃ sign ∈ [[], [plus], [minus]], s = sign ++ (optionalSign s).2 := by
  cases s with
  | nil => exact ⟨[], by simp, rfl⟩
  | cons b s =>
    by_cases isPlus : b = plus
    · exact ⟨[plus], by simp, by simp [optionalSign, isPlus]⟩
    by_cases isMinus : b = minus
    · have ne : minus ≠ plus := by decide
      exact ⟨[minus], by simp, by simp [optionalSign, isMinus, ne]⟩
    · exact ⟨[], by simp, by simp [optionalSign, isPlus, isMinus]⟩

/-- An exponent that is read is one or nothing, and stands in front of what is left. -/
lemma exponentPart_body {x : Option Int} (read : exponentPart atEnd s = .ok (x, r)) :
    ∃ body, ExponentBody body ∧ s = body ++ r := by
  cases s with
  | nil =>
    cases read
    exact ⟨[], .none, rfl⟩
  | cons e s =>
    simp only [exponentPart] at read
    split at read
    case isTrue letter =>
      obtain ⟨sign, signed, whole⟩ := optionalSign_eq s
      simp only [Except.bind_eq_ok, Prod.exists, Except.pure_eq_ok, Prod.mk.injEq] at read
      obtain ⟨ds, s', read, -, rfl⟩ := read
      obtain ⟨digits, split⟩ := someDigits_digits read
      refine ⟨e :: (sign ++ ds), .digits (by simpa using letter) signed digits, ?_⟩
      rw [whole, split, List.cons_append, List.append_assoc]
    case isFalse =>
      cases read
      exact ⟨[], .none, rfl⟩

/-- A minus that may be read is one or nothing, and stands in front of what is left. -/
lemma leadingMinus_eq (s : List UInt8) :
    ∃ sign ∈ [[], [minus]], s = sign ++ (leadingMinus s).2 := by
  cases s with
  | nil => exact ⟨[], by simp, rfl⟩
  | cons b s =>
    by_cases isMinus : b = minus
    · exact ⟨[minus], by simp, by simp [leadingMinus, isMinus]⟩
    · exact ⟨[], by simp, by simp [leadingMinus, isMinus]⟩

/-- A numeral that is read stands in front of what is left. -/
lemma numeral_body {n : Numeral} (read : numeral atEnd s = .ok (n, r)) :
    ∃ t : NumeralText, s = t.1 ++ r := by
  obtain ⟨sign, signed, start⟩ := leadingMinus_eq s
  simp only [numeral, Except.bind_eq_ok, Prod.exists, Except.pure_eq_ok, Prod.mk.injEq] at read
  obtain ⟨whole, s₁, read₁, _, s₂, read₂, _, s₃, read₃, -, rfl⟩ := read
  obtain ⟨isWhole, split⟩ := wholePart_body read₁
  obtain ⟨fraction, isFraction, rfl⟩ := fractionPart_body read₂
  obtain ⟨exponent, isExponent, rfl⟩ := exponentPart_body read₃
  refine ⟨⟨_, .parts signed isWhole isFraction isExponent⟩, ?_⟩
  rw [start, split]
  simp

/-- A natural number as it is written. -/
def NumeralText.of (n : ℕ) : NumeralText where
  val := natBytes n
  property := by
    obtain ⟨⟨body, numeral⟩, eq⟩ := numeral_body (numeral_natBytes n .truncated endsNumeral_nil)
    rwa [List.append_cancel_right eq]

end Numerals

/-! ## Parts of a text -/

/-- A part stands at the front of a text, before the rest. -/
def Ahead (part : Part) (s rest : List UInt8) : Prop :=
  ∃ bytes, Spells part bytes ∧ s = bytes ++ rest

/-- What is skipped is blank. -/
lemma skipSpace_eq {s s' : List UInt8} (eq : skipSpace s = s') :
    ∃ blanks, Blank blanks ∧ s = blanks ++ s' := by
  refine ⟨s.takeWhile isSpace, fun b mem => List.mem_takeWhile_imp mem, ?_⟩
  rw [← eq, skipSpace, List.takeWhile_append_dropWhile]

/-- A word that is read stands in front of what is left. -/
lemma word_eq_ok {letters s r : List UInt8} (read : word letters s = .ok r) : s = letters ++ r := by
  induction letters generalizing s with
  | nil =>
    cases read
    rfl
  | cons w letters ih =>
    cases s with
    | nil => cases read
    | cons b s =>
      simp only [word] at read
      split at read
      case isTrue eq => rw [eq_of_beq eq, ih read, List.cons_append]
      case isFalse => cases read

/-- What comes before an item, taken apart. -/
lemma nextElement_eq {first : Bool} {s s' : List UInt8}
    (next : nextElement first s = .ok (some s')) :
    ∃ before blanks, Separates first before ∧ Blank blanks ∧ s = before ++ (blanks ++ s') := by
  simp only [nextElement] at next
  split at next
  case h_1 => cases next
  case h_2 b rest start =>
    obtain ⟨blanks, blank, rfl⟩ := skipSpace_eq start
    split at next
    · cases next
    cases first with
    | true =>
      cases next
      exact ⟨[], blanks, .first, blank, rfl⟩
    | false =>
      rw [if_neg Bool.false_ne_true] at next
      split at next
      case isFalse => cases next
      case isTrue isComma =>
        obtain rfl := eq_of_beq isComma
        split at next
        · cases next
        case h_2 c rest' start' =>
          obtain ⟨blanks', blank', rfl⟩ := skipSpace_eq start'
          split at next
          · cases next
          · cases next
            exact ⟨_, blanks', .comma blank, blank', by simp⟩

/-- What comes before a member, taken apart. -/
lemma nextName_eq {first : Bool} {s s' : List UInt8}
    (next : nextName first s = .ok (some s')) :
    ∃ before blanks, Separates first before ∧ Blank blanks
      ∧ s = before ++ (blanks ++ quote :: s') := by
  simp only [nextName] at next
  split at next
  case h_1 => cases next
  case h_2 b rest start =>
    obtain ⟨blanks, blank, rfl⟩ := skipSpace_eq start
    split at next
    · cases next
    -- only the first member has no comma before it
    cases first with
    | true =>
      rw [if_pos rfl] at next
      split at next
      case isFalse => cases next
      case isTrue isQuote =>
        cases next
        obtain rfl := eq_of_beq isQuote
        exact ⟨[], blanks, .first, blank, rfl⟩
    | false =>
      rw [if_neg Bool.false_ne_true] at next
      split at next
      case isFalse => cases next
      case isTrue isComma =>
        obtain rfl := eq_of_beq isComma
        split at next
        · cases next
        case h_2 c rest' start' =>
          obtain ⟨blanks', blank', rfl⟩ := skipSpace_eq start'
          split at next
          case isFalse => cases next
          case isTrue isQuote =>
            cases next
            obtain rfl := eq_of_beq isQuote
            exact ⟨_, blanks', .comma blank, blank', by simp⟩

/-- What ends a name is a colon after blanks. -/
lemma nameEnd_eq {s s' : List UInt8} (read : nameEnd s = .ok s') :
    ∃ blanks, Blank blanks ∧ s = blanks ++ colon :: s' := by
  simp only [nameEnd] at read
  split at read
  · cases read
  case h_2 b rest start =>
    split at read
    case isFalse => cases read
    case isTrue isColon =>
      cases read
      obtain rfl := eq_of_beq isColon
      exact skipSpace_eq start

namespace Ahead

variable {s s' s'' r : List UInt8} {first : Bool} {v : Tree} {vs : List Tree}
variable {ms : List (StringText × Tree)}

/-- A word that is read is a value. -/
lemma word {w : Word} (start : skipSpace s = w.head :: s') (read : Json.word w.tail s' = .ok r) :
    Ahead (.value (.word w)) s r := by
  obtain ⟨blanks, blank, rfl⟩ := skipSpace_eq start
  obtain rfl := word_eq_ok read
  exact ⟨_, .word blank, by simp⟩

/-- A word that is passed over is a value. -/
lemma skipped {w : Word} {x : Unit} (start : skipSpace s = w.head :: s')
    (read : (do return ((), ← Json.word w.tail s')) = Except.ok (x, r)) :
    ∃ v, Ahead (.value v) s r := by
  simp only [Except.bind_eq_ok, Except.pure_eq_ok, Prod.mk.injEq] at read
  obtain ⟨r, passed, -, rfl⟩ := read
  exact ⟨.word w, word start passed⟩

/-- A number is a value. -/
lemma number {t : NumeralText} (start : skipSpace s = t.1 ++ r) :
    Ahead (.value (.number t)) s r := by
  obtain ⟨blanks, blank, rfl⟩ := skipSpace_eq start
  exact ⟨_, .number blank, by simp⟩

/-- A string that is closed is a value. -/
lemma string (start : skipSpace s = quote :: s') (closes : Closes s' r) :
    ∃ t, Ahead (.value (.string t)) s r := by
  obtain ⟨blanks, blank, rfl⟩ := skipSpace_eq start
  obtain ⟨t, rfl⟩ := closes
  exact ⟨t, _, .string blank, by simp [StringText.bytes]⟩

/-- Items between brackets are a value. -/
lemma array (start : skipSpace s = openBracket :: s') (items : Ahead (.items true vs) s' r) :
    Ahead (.value (.array vs)) s r := by
  obtain ⟨blanks, blank, rfl⟩ := skipSpace_eq start
  obtain ⟨bytes, spells, rfl⟩ := items
  exact ⟨_, .array blank spells, by simp⟩

/-- Members between braces are a value. -/
lemma object (start : skipSpace s = openBrace :: s') (members : Ahead (.members true ms) s' r) :
    Ahead (.value (.object ms)) s r := by
  obtain ⟨blanks, blank, rfl⟩ := skipSpace_eq start
  obtain ⟨bytes, spells, rfl⟩ := members
  exact ⟨_, .object blank spells, by simp⟩

/-- Blanks may stand in front of a value. -/
lemma blanks {blanks : List UInt8} (blank : Blank blanks) (value : Ahead (.value v) s r) :
    Ahead (.value v) (blanks ++ s) r := by
  obtain ⟨bytes, spells, rfl⟩ := value
  obtain ⟨blanks', tail, blank', tailed, rfl⟩ := spells_value_iff.mp spells
  refine ⟨_, spells_value_iff.mpr ⟨blanks ++ blanks', tail, ?_, tailed, rfl⟩, by simp⟩
  exact List.forall_mem_append.mpr ⟨blank, blank'⟩

/-- What closes an array ends its items. -/
lemma endItems (read : closeArray s = .ok r) : Ahead (.items first []) s r := by
  simp only [closeArray] at read
  split at read
  · cases read
  case h_2 b rest start =>
    split at read
    case isFalse => cases read
    case isTrue isBracket =>
      cases read
      obtain rfl := eq_of_beq isBracket
      obtain ⟨blanks, blank, rfl⟩ := skipSpace_eq start
      exact ⟨_, .endItems blank, by simp⟩

/-- A value in front of more items is an item. -/
lemma item (next : nextElement first s = .ok (some s')) (value : Ahead (.value v) s' s'')
    (items : Ahead (.items false vs) s'' r) : Ahead (.items first (v :: vs)) s r := by
  obtain ⟨before, blanks, separates, blank, rfl⟩ := nextElement_eq next
  obtain ⟨bytes, spells, split⟩ := value.blanks blank
  obtain ⟨more, spells', rfl⟩ := items
  rw [split]
  exact ⟨_, .item separates spells spells', by simp⟩

/-- What closes an object ends its members. -/
lemma endMembers (read : closeObject s = .ok r) : Ahead (.members first []) s r := by
  simp only [closeObject] at read
  split at read
  · cases read
  case h_2 b rest start =>
    split at read
    case isFalse => cases read
    case isTrue isBrace =>
      cases read
      obtain rfl := eq_of_beq isBrace
      obtain ⟨blanks, blank, rfl⟩ := skipSpace_eq start
      exact ⟨_, .endMembers blank, by simp⟩

/-- A name with a value in front of more members is a member. -/
lemma member {toValue afterValue : List UInt8} (next : nextName first s = .ok (some s'))
    (name : Closes s' s'') (colon : nameEnd s'' = .ok toValue)
    (value : Ahead (.value v) toValue afterValue)
    (members : Ahead (.members false ms) afterValue r) :
    ∃ t, Ahead (.members first ((t, v) :: ms)) s r := by
  obtain ⟨before, blanks, separates, blank, rfl⟩ := nextName_eq next
  obtain ⟨t, rfl⟩ := name
  obtain ⟨blanks', blank', rfl⟩ := nameEnd_eq colon
  obtain ⟨bytes, spells, rfl⟩ := value
  obtain ⟨more, spells', rfl⟩ := members
  exact ⟨t, _, .member separates blank blank' spells spells', by simp [StringText.bytes]⟩

end Ahead

/-! ## Strict readers -/

/-- A reader takes nothing for a value but a spelling of one. -/
def Strict (read : Reader α) : Prop :=
  ∀ s x r, read s = .ok (x, r) → ∃ v, Ahead (.value v) s r

/-- A reader takes nothing for a name but the rest of a string. -/
def StrictName (name : Reader ν) : Prop :=
  ∀ s n r, name s = .ok (n, r) → Closes s r

/-- What is accepted as a name is a string. -/
lemma strictName_string : StrictName string :=
  fun _ _ _ => string_closes

/-- What is accepted as a text is a value. -/
lemma strict_text : Strict text := by
  intro s x r read
  simp only [text] at read
  split at read
  · cases read
  case h_2 b rest start =>
    split at read
    case isFalse => cases read
    case isTrue isQuote =>
      obtain rfl := eq_of_beq isQuote
      obtain ⟨t, string⟩ := Ahead.string start (string_closes read)
      exact ⟨_, string⟩

/-- What is read as a number is a numeral. -/
lemma number_body {s r : List UInt8} {n : Number} (read : number s = .ok (n, r)) :
    ∃ t : NumeralText, s = t.1 ++ r := by
  simp only [number, Except.bind_eq_ok, Prod.exists] at read
  obtain ⟨_, _, body, value⟩ := read
  split at value
  · cases value
    exact numeral_body body
  · cases value

/-- What is passed over as a number is a numeral. -/
lemma skipNumber_body {s r : List UInt8} (read : skipNumber s = .ok r) :
    ∃ t : NumeralText, s = t.1 ++ r := by
  simp only [skipNumber, Except.bind_eq_ok, Prod.exists, Except.pure_eq_ok] at read
  obtain ⟨_, _, body, rfl⟩ := read
  exact numeral_body body

/-- What is accepted as an integer of 32 bits is a value. -/
lemma strict_uint32 : Strict uint32 := by
  intro s x r read
  simp only [uint32] at read
  split at read
  · cases read
  case h_2 b rest start =>
    split at read
    case isFalse => cases read
    case isTrue =>
      simp only [Except.bind_eq_ok, Prod.exists] at read
      obtain ⟨n, s', body, small⟩ := read
      obtain ⟨t, whole⟩ := number_body body
      cases n with
      | real => cases small
      | integer k =>
        dsimp only at small
        split at small
        case isFalse => cases small
        case isTrue =>
          cases small
          exact ⟨_, .number (start.trans whole)⟩

/-- The loop over items takes no more than what is left of an array. -/
lemma elements_ahead {item : Reader α} (strict : Strict item) {rounds : ℕ} {first : Bool}
    {s r : List UInt8} {xs : List α} (read : elements item rounds first s = .ok (xs, r)) :
    ∃ vs, Ahead (.items first vs) s r := by
  induction rounds generalizing first s xs with
  | zero => cases read
  | succ rounds ih =>
    simp only [elements, Except.bind_eq_ok] at read
    obtain ⟨next, start, read⟩ := read
    cases next with
    | none =>
      simp only [Except.bind_eq_ok, Except.pure_eq_ok, Prod.mk.injEq] at read
      obtain ⟨r, close, -, rfl⟩ := read
      exact ⟨[], .endItems close⟩
    | some s' =>
      simp only [Except.bind_eq_ok, Prod.exists, Except.pure_eq_ok, Prod.mk.injEq] at read
      obtain ⟨x, s'', here, xs, r, later, -, rfl⟩ := read
      obtain ⟨v, value⟩ := strict _ _ _ here
      obtain ⟨vs, items⟩ := ih later
      exact ⟨v :: vs, .item start value items⟩

/-- What is accepted as a list is a value if what is accepted as its items is. -/
lemma strict_list {item : Reader α} (strict : Strict item) : Strict (list item) := by
  intro s x r read
  simp only [list] at read
  split at read
  · cases read
  case h_2 b rest start =>
    split at read
    case isFalse => cases read
    case isTrue isBracket =>
      obtain rfl := eq_of_beq isBracket
      obtain ⟨vs, items⟩ := elements_ahead strict read
      exact ⟨_, .array start items⟩

/-- The loop over members takes no more than what is left of an object. -/
lemma members_ahead {name : Reader ν} {member : σ → ν → Except Fault (Reader σ)}
    (names : StrictName name) (strict : ∀ state n read, member state n = .ok read → Strict read)
    {rounds : ℕ} {first : Bool} {state last : σ} {s r : List UInt8}
    (read : members name member rounds first state s = .ok (last, r)) :
    ∃ ms, Ahead (.members first ms) s r := by
  induction rounds generalizing first state s with
  | zero => cases read
  | succ rounds ih =>
    simp only [members, Except.bind_eq_ok] at read
    obtain ⟨next, start, read⟩ := read
    cases next with
    | none =>
      simp only [Except.bind_eq_ok, Except.pure_eq_ok, Prod.mk.injEq] at read
      obtain ⟨r, close, -, rfl⟩ := read
      exact ⟨[], .endMembers close⟩
    | some s' =>
      simp only [Except.bind_eq_ok, Prod.exists] at read
      obtain ⟨n, _, named, value, known, _, colon, next, _, here, later⟩ := read
      obtain ⟨v, value⟩ := strict _ _ _ known _ _ _ here
      obtain ⟨ms, members⟩ := ih later
      obtain ⟨t, members⟩ := Ahead.member start (names _ _ _ named) colon value members
      exact ⟨_, members⟩

/-- What is passed over as a name is a string. -/
lemma strictName_skip : StrictName (fun s => do return ((), ← skipString s) : Reader Unit) := by
  intro s n r read
  simp only [Except.bind_eq_ok, Except.pure_eq_ok, Prod.mk.injEq] at read
  obtain ⟨_, closes, -, rfl⟩ := read
  exact skipString_closes closes

/-- What is passed over within some depth is a value. -/
lemma strict_skipNested (depth : ℕ) : Strict (skipNested depth) := by
  induction depth with
  | zero => exact nofun
  | succ depth ih =>
    intro s x r read
    simp only [skipNested, skipWith] at read
    split at read
    · cases read
    case h_2 b rest start =>
      -- the first byte says what is skipped: a word, a number, a string, a list or an object
      split at read
      case isTrue eq =>
        obtain rfl := eq_of_beq eq
        exact Ahead.skipped (w := .null) start read
      split at read
      case isTrue eq =>
        obtain rfl := eq_of_beq eq
        exact Ahead.skipped (w := .true) start read
      split at read
      case isTrue eq =>
        obtain rfl := eq_of_beq eq
        exact Ahead.skipped (w := .false) start read
      split at read
      case isTrue =>
        simp only [Except.bind_eq_ok, Except.pure_eq_ok, Prod.mk.injEq] at read
        obtain ⟨r, passed, -, rfl⟩ := read
        obtain ⟨t, whole⟩ := skipNumber_body passed
        exact ⟨_, .number (start.trans whole)⟩
      split at read
      case isTrue eq =>
        obtain rfl := eq_of_beq eq
        simp only [Except.bind_eq_ok, Except.pure_eq_ok, Prod.mk.injEq] at read
        obtain ⟨r, passed, -, rfl⟩ := read
        obtain ⟨t, string⟩ := Ahead.string start (skipString_closes passed)
        exact ⟨_, string⟩
      split at read
      case isTrue eq =>
        obtain rfl := eq_of_beq eq
        simp only [Except.bind_eq_ok, Prod.exists, Except.pure_eq_ok, Prod.mk.injEq] at read
        obtain ⟨xs, r, passed, -, rfl⟩ := read
        obtain ⟨vs, items⟩ := elements_ahead ih passed
        exact ⟨_, .array start items⟩
      split at read
      case isTrue eq =>
        obtain rfl := eq_of_beq eq
        obtain ⟨ms, members⟩ := members_ahead strictName_skip
          (fun _ _ _ known => Except.ok.inj known ▸ ih) read
        exact ⟨_, .object start members⟩
      cases read

/-- What is passed over is a value. -/
lemma strict_skipValue : Strict skipValue :=
  fun s x r read => strict_skipNested (s.length + 1) s x r read

/-! ## Records -/

section Records

variable {slots : List (Slot σ)}

/-- What is accepted for a member is a value if its reader accepts nothing else. -/
lemma strict_of {β : Type} {name : String} {get : σ → Option β} {set : σ → β → σ} {read : Reader β}
    (strict : Strict read) (draft : σ) : Strict ((Slot.of name get set read).fill draft) := by
  intro s x r filled
  simp only [Slot.of, Except.bind_eq_ok, Prod.exists, Except.pure_eq_ok, Prod.mk.injEq] at filled
  obtain ⟨y, _, read, -, rfl⟩ := filled
  exact strict _ _ _ read

/-- What is accepted after a name is a value, whether the name is known or passed over. -/
lemma strict_slotNamed (strict : ∀ slot ∈ slots, ∀ draft, Strict (slot.fill draft)) {draft : σ}
    {name : String} {read : Reader σ} (known : slotNamed slots draft name = .ok read) :
    Strict read := by
  unfold slotNamed at known
  split at known
  · cases known
    intro s x r read
    simp only [Except.bind_eq_ok, Except.pure_eq_ok, Prod.mk.injEq] at read
    obtain ⟨⟨_, _⟩, skipped, -, rfl⟩ := read
    exact strict_skipValue _ _ _ skipped
  case h_2 slot found =>
    split at known
    · cases known
    · cases known
      exact strict slot (List.mem_of_find?_eq_some found) draft

/-- Items that are read in their order are the front of an array. -/
lemma slotsInOrder_ahead (strict : ∀ slot ∈ slots, ∀ draft, Strict (slot.fill draft)) {first : Bool}
    {draft last : σ} {s s' r : List UInt8}
    (read : slotsInOrder slots first draft s = .ok (last, s')) (close : closeArray s' = .ok r) :
    ∃ vs, Ahead (.items first vs) s r := by
  induction slots generalizing first draft s with
  | nil =>
    cases read
    exact ⟨[], .endItems close⟩
  | cons slot slots ih =>
    obtain ⟨here, later⟩ := List.forall_mem_cons.mp strict
    simp only [slotsInOrder, Except.bind_eq_ok] at read
    obtain ⟨next, start, read⟩ := read
    cases next with
    | none =>
      cases read
      exact ⟨[], .endItems close⟩
    | some s' =>
      simp only [Except.bind_eq_ok, Prod.exists] at read
      obtain ⟨next, _, filled, read⟩ := read
      obtain ⟨v, value⟩ := here _ _ _ _ filled
      obtain ⟨vs, items⟩ := ih later read
      exact ⟨v :: vs, .item start value items⟩

/-- A record is read from nothing but an object or an array. -/
lemma strict_record (strict : ∀ slot ∈ slots, ∀ draft, Strict (slot.fill draft)) (blank : σ)
    (finish : σ → Option α) : Strict (record slots blank finish) := by
  intro s x r read
  simp only [record] at read
  split at read
  · cases read
  case h_2 b rest start =>
    split at read
    case isTrue isBrace =>
      obtain rfl := eq_of_beq isBrace
      simp only [Except.bind_eq_ok, Prod.exists, Except.pure_eq_ok, Prod.mk.injEq] at read
      obtain ⟨last, _, read, _, -, -, rfl⟩ := read
      obtain ⟨ms, members⟩ := members_ahead strictName_string
        (fun _ _ _ known => strict_slotNamed strict known) read
      exact ⟨_, .object start members⟩
    case isFalse =>
      split at read
      case isFalse => cases read
      case isTrue isBracket =>
        obtain rfl := eq_of_beq isBracket
        simp only [Except.bind_eq_ok, Prod.exists, Except.pure_eq_ok, Prod.mk.injEq] at read
        obtain ⟨last, s', read, _, -, _, close, -, rfl⟩ := read
        obtain ⟨vs, items⟩ := slotsInOrder_ahead strict read close
        exact ⟨_, .array start items⟩

/-- A text that is read as a whole is JSON. -/
theorem Strict.spelled {read : Reader α} (strict : Strict read) {text : List UInt8} {x : α}
    (accepted : whole read text = .ok x) : ∃ v, Spelled text v := by
  simp only [whole, Except.bind_eq_ok, Prod.exists] at accepted
  obtain ⟨x, rest, read, ended⟩ := accepted
  split at ended
  case h_2 => cases ended
  case h_1 ended' =>
    obtain ⟨v, bytes, spells, rfl⟩ := strict _ _ _ read
    obtain ⟨blanks, blank, rfl⟩ := skipSpace_eq ended'
    exact ⟨v, bytes, blanks, by simp, spells, blank⟩

end Records

end MetricRegistry.Json
