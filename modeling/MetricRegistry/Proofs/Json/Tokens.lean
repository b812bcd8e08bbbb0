import MetricRegistry.Proofs.Json.Grammar

/-!
# Strings and numerals as they are spelled

What a string or a numeral is read as depends on its own bytes and not on what follows. For strings
that is `StringBody.stringBytes`: an escape of half a surrogate pair looks ahead, but no further
than the closing quote. For numerals it is `NumeralBody.read`, if what follows does not go on with
them; there the fault at the end of a text makes no difference. `StringBody.skip`, `word_append` and
`NumeralBody.skip` are for what is passed over.
-/

namespace MetricRegistry.Json
open Ascii

/-! ## Strings -/

/-- Bytes are put in front of a result apart from what is left. -/
lemma prependBytes_map (bytes rest : List UInt8) (r : Except Fault (List UInt8)) :
    prependBytes bytes (r.map (·, rest)) = (r.map (bytes ++ ·)).map (·, rest) := by
  cases r <;> rfl

/-- No short escape looks like that of a code unit. -/
lemma shortEscape?_ne {e : UInt8} (short : (shortEscape? e).isSome = true) : e ≠ lowerU := by
  rintro rfl
  revert short
  decide

/-- A unit is not both halves of a surrogate pair. -/
lemma not_isLowSurrogate {unit : ℕ} (high : isHighSurrogate unit = true) :
    ¬ isLowSurrogate unit = true := by
  simp only [isHighSurrogate, isLowSurrogate, Bool.and_eq_true, decide_eq_true_eq] at high ⊢
  omega

/-- The escapes of a surrogate pair are read together. -/
lemma stringBytes_pair {a b c d a' b' c' d' : UInt8} {unit unit' : ℕ} (s : List UInt8)
    (hex : hex4? a b c d = some unit) (high : isHighSurrogate unit = true)
    (hex' : hex4? a' b' c' d' = some unit') :
    stringBytes (backslash :: lowerU :: a :: b :: c :: d ::
        backslash :: lowerU :: a' :: b' :: c' :: d' :: s)
      = if isLowSurrogate unit' then prependBytes (codeBytes (pairCode unit unit')) (stringBytes s)
        else .error .malformed := by
  refine (stringBytes.eq_4 a b c d _).trans ?_
  simp only [hex, if_neg (not_isLowSurrogate high), if_pos high]
  split
  case h_1 eq =>
    cases eq
    rw [hex']
  case h_2 short eq =>
    cases eq
    exact (short a' b' c' d' s rfl).elim
  case h_3 eq => cases eq
  case h_4 eq => cases eq
  case h_5 other _ _ _ => exact (other a' b' c' d' s rfl).elim

/-- What the bytes of a string spell does not depend on what follows the closing quote. -/
lemma StringBody.stringBytes {s : List UInt8} (body : StringBody s) :
    ∃ r : Except Fault (List UInt8), ∀ rest,
      Json.stringBytes (s ++ quote :: rest) = r.map (·, rest) := by
  -- the second half of a surrogate pair goes with the first, so the steps are of several lengths
  induction length : s.length using Nat.strongRecOn generalizing s with
  | ind n ih =>
    cases body with
    | nil => exact ⟨.ok [], fun rest => stringBytes.eq_2 rest⟩
    | @plain b s plain body =>
      obtain ⟨r, eq⟩ := ih s.length (by rw [← length]; simp only [List.length_cons]; omega) body rfl
      refine ⟨r.map ([b] ++ ·), fun rest => ?_⟩
      rw [List.cons_append, stringBytes_plain _ plain, eq, prependBytes_map]
    | @short e s short body =>
      obtain ⟨b, escape⟩ := Option.isSome_iff_exists.mp short
      obtain ⟨r, eq⟩ := ih s.length (by rw [← length]; simp only [List.length_cons]; omega) body rfl
      refine ⟨r.map ([b] ++ ·), fun rest => ?_⟩
      rw [List.cons_append, List.cons_append, stringBytes_short _ (shortEscape?_ne short) escape,
        eq, prependBytes_map]
    | @unit a b c d s hex body =>
      obtain ⟨unit, hex⟩ := Option.isSome_iff_exists.mp hex
      have step (rest : List UInt8) := stringBytes.eq_4 a b c d (s ++ quote :: rest)
      simp only [hex] at step
      by_cases low : isLowSurrogate unit
      · exact ⟨.error .malformed, fun rest => (step rest).trans (if_pos low)⟩
      simp only [if_neg low] at step
      by_cases high : isHighSurrogate unit
      · simp only [if_pos high] at step
        cases body with
        | nil => exact ⟨.error .malformed, step⟩
        | @plain b' s plain body =>
          refine ⟨.error .malformed, fun rest => (step rest).trans ?_⟩
          have ne := plain.2.1
          split <;> simp_all [Except.map]
        | @short e s short body =>
          refine ⟨.error .malformed, fun rest => (step rest).trans ?_⟩
          have ne := shortEscape?_ne short
          split <;> simp_all [Except.map]
        | @unit a' b' c' d' s hex' body =>
          obtain ⟨unit', hex'⟩ := Option.isSome_iff_exists.mp hex'
          obtain ⟨r, eq⟩ := ih s.length
            (by rw [← length]; simp only [List.length_cons]; omega) body rfl
          have pair (rest : List UInt8) := stringBytes_pair (s ++ quote :: rest) hex high hex'
          by_cases second : isLowSurrogate unit'
          · refine ⟨r.map (codeBytes (pairCode unit unit') ++ ·), fun rest => (pair rest).trans ?_⟩
            rw [if_pos second, eq, prependBytes_map]
          · exact ⟨.error .malformed, fun rest => (pair rest).trans (if_neg second)⟩
      · obtain ⟨r, eq⟩ := ih s.length
          (by rw [← length]; simp only [List.length_cons]; omega) body rfl
        refine ⟨r.map (codeBytes unit ++ ·), fun rest => ?_⟩
        refine (step rest).trans ?_
        rw [if_neg high, eq, prependBytes_map]

/-- A reader takes what a string spells for a name, once its opening quote is read. -/
def Names {ν : Type} (name : Reader ν) (t : StringText) (n : ν) : Prop :=
  ∀ rest, name (t.1 ++ quote :: rest) = .ok (n, rest)

/-- Whether and what a reader of names gives depends on the string alone. -/
def UniformName {ν : Type} (name : Reader ν) : Prop :=
  ∀ t rest n r, name (t.1 ++ quote :: rest) = .ok (n, r) → r = rest ∧ Names name t n

/-- A string names the same text wherever it stands. -/
lemma uniformName_string : UniformName string := by
  intro t rest n r read
  obtain ⟨result, eq⟩ := t.2.stringBytes
  rw [string, eq] at read
  cases result with
  | error e => cases read
  | ok bytes =>
    simp only [Except.map, bind, Except.bind] at read
    cases text : Text.ofUtf8? bytes with
    | none =>
      rw [text] at read
      cases read
    | some text' =>
      rw [text] at read
      cases read
      refine ⟨rfl, fun rest => ?_⟩
      rw [string, eq]
      simp only [Except.map, bind, Except.bind, text]
      rfl

/-- A string is passed over up to its closing quote, whatever it spells. -/
lemma StringBody.skip {s : List UInt8} (body : StringBody s) (rest : List UInt8) :
    skipString (s ++ quote :: rest) = .ok rest := by
  induction body with
  | nil => exact skipString.eq_2 rest
  | @plain b s plain body ih =>
    obtain ⟨noQuote, noBackslash, noControl⟩ := plain
    rw [List.cons_append, skipString.eq_7 b _ noQuote (fun h => absurd h noBackslash)
      (fun _ _ _ _ _ h => absurd h noBackslash) (fun _ h => absurd h noBackslash)
      (fun _ _ h => absurd h noBackslash), if_neg noControl]
    exact ih
  | @short e s short body ih =>
    have ne := shortEscape?_ne short
    refine (skipString.eq_6 e (s ++ quote :: rest) (fun _ _ _ _ _ h => absurd h ne)
      (fun h => absurd h ne)).trans ?_
    rw [if_pos short]
    exact ih
  | @unit a b c d s hex body ih =>
    refine (skipString.eq_4 a b c d (s ++ quote :: rest)).trans ?_
    rw [if_pos hex]
    exact ih

/-! ## Words -/

/-- A word is read from its letters. -/
lemma word_append (letters s : List UInt8) : word letters (letters ++ s) = .ok s := by
  induction letters with
  | nil => rfl
  | cons b letters ih => simpa [word] using ih

/-! ## Numerals -/

section Numerals

variable {s bytes : List UInt8} (atEnd : Fault)

/-- Some digits are read up to a byte that is none. -/
lemma someDigits_append (digits : Digits bytes) (ends : ∀ b ∈ s.head?, isDigit b = false) :
    someDigits atEnd (bytes ++ s) = .ok (bytes, s) := by
  obtain ⟨nonempty, all⟩ := digits
  obtain ⟨taken, dropped⟩ := takeWhile_isDigit all ends
  obtain ⟨d, ds, rfl⟩ := List.exists_cons_of_ne_nil nonempty
  have digit := all d (List.mem_cons_self ..)
  rw [List.cons_append] at taken dropped ⊢
  simp only [someDigits, digit, if_true, taken, dropped]

/-- A whole part is read up to a byte that is no digit. -/
lemma WholeBody.read (whole : WholeBody bytes) (ends : ∀ b ∈ s.head?, isDigit b = false) :
    wholePart atEnd (bytes ++ s) = .ok (bytes, s) := by
  cases whole with
  | lone =>
    cases s with
    | nil => rfl
    | cons b s =>
      have notDigit := ends b rfl
      simp [wholePart, notDigit]
  | @digits d ds ne digits =>
    have digit := digits.2 d (List.mem_cons_self ..)
    obtain ⟨taken, dropped⟩ :=
      takeWhile_isDigit (fun b mem => digits.2 b (List.mem_cons_of_mem d mem)) ends
    simp [wholePart, ne, digit, taken, dropped]

/-- A fraction is read up to a byte that cannot go on with it. -/
lemma FractionBody.read (fraction : FractionBody bytes) :
    ∃ ds, ∀ (atEnd : Fault) (s : List UInt8), (∀ b ∈ s.head?, isDigit b = false ∧ b ≠ dot) →
      fractionPart atEnd (bytes ++ s) = .ok (ds, s) := by
  cases fraction with
  | none =>
    refine ⟨[], fun atEnd s ends => ?_⟩
    cases s with
    | nil => rfl
    | cons b s => simp [fractionPart, (ends b rfl).2]
  | @digits ds digits =>
    refine ⟨ds, fun atEnd s ends => ?_⟩
    rw [List.cons_append, fractionPart, if_pos (beq_self_eq_true dot)]
    exact someDigits_append atEnd digits fun b mem => (ends b mem).1

/-- A sign is taken from in front of digits. -/
lemma optionalSign_append {sign : List UInt8} (signed : sign ∈ [[], [plus], [minus]])
    (digits : Digits bytes) :
    ∃ negative, ∀ s, optionalSign (sign ++ (bytes ++ s)) = (negative, bytes ++ s) := by
  obtain ⟨d, ds, rfl⟩ := List.exists_cons_of_ne_nil digits.1
  obtain rfl | rfl | rfl : sign = [] ∨ sign = [plus] ∨ sign = [minus] := by simpa using signed
  · have ne := ne_sign_of_isDigit (digits.2 d (List.mem_cons_self ..))
    exact ⟨false, fun s => by simp [optionalSign, ne]⟩
  · exact ⟨false, fun s => rfl⟩
  · exact ⟨true, fun s => rfl⟩

/-- A minus is taken from in front of a whole part. -/
lemma leadingMinus_append {sign : List UInt8} (signed : sign ∈ [[], [minus]])
    (whole : WholeBody bytes) :
    ∃ negative, ∀ s, leadingMinus (sign ++ (bytes ++ s)) = (negative, bytes ++ s) := by
  obtain ⟨d, ds, rfl, digit⟩ := whole.head
  obtain rfl | rfl : sign = [] ∨ sign = [minus] := by simpa using signed
  · have ne := ne_sign_of_isDigit digit
    exact ⟨false, fun s => by simp [leadingMinus, ne]⟩
  · exact ⟨true, fun s => rfl⟩

/-- An exponent is read up to a byte that cannot go on with the numeral. -/
lemma ExponentBody.read (exponent : ExponentBody bytes) :
    ∃ x, ∀ (atEnd : Fault) (s : List UInt8), EndsNumeral s →
      exponentPart atEnd (bytes ++ s) = .ok (x, s) := by
  cases exponent with
  | none =>
    refine ⟨Option.none, fun atEnd s ends => ?_⟩
    cases s with
    | nil => rfl
    | cons b s => simp [exponentPart, (ends b rfl).2.2]
  | @digits e sign ds letter signed digits =>
    obtain ⟨negative, toDigits⟩ := optionalSign_append signed digits
    refine ⟨some (if negative then -(natOfDigits ds : Int) else natOfDigits ds),
      fun atEnd s ends => ?_⟩
    have taken := someDigits_append atEnd digits fun b mem => (ends b mem).1
    have isLetter : (e == lowerE || e == upperE) = true := by simpa using letter
    rw [List.cons_append, List.append_assoc, exponentPart, if_pos isLetter, toDigits]
    simp [taken, bind, Except.bind, pure, Except.pure]

/-- What follows the whole part goes on with no digit. -/
lemma ExponentBody.head (exponent : ExponentBody bytes) (ends : EndsNumeral s) :
    ∀ b ∈ (bytes ++ s).head?, isDigit b = false ∧ b ≠ dot := by
  cases exponent with
  | none => exact fun b mem => ⟨(ends b mem).1, (ends b mem).2.1⟩
  | digits letter =>
    intro b mem
    obtain rfl := Option.some.inj mem
    rcases letter with rfl | rfl <;> decide

/-- No digit follows a whole part, whether a fraction does or not. -/
lemma FractionBody.head (fraction : FractionBody bytes)
    (ends : ∀ b ∈ s.head?, isDigit b = false ∧ b ≠ dot) :
    ∀ b ∈ (bytes ++ s).head?, isDigit b = false := by
  cases fraction with
  | none => exact fun b mem => (ends b mem).1
  | digits =>
    intro b mem
    obtain rfl := Option.some.inj mem
    decide

/-- What a numeral is read as does not depend on what follows, nor on the fault that the end of the
text would be. -/
lemma NumeralBody.read (body : NumeralBody bytes) :
    ∃ n, ∀ (atEnd : Fault) (s : List UInt8), EndsNumeral s →
      numeral atEnd (bytes ++ s) = .ok (n, s) := by
  cases body with
  | @parts sign whole fraction exponent signed isWhole isFraction isExponent =>
  obtain ⟨negative, noSign⟩ := leadingMinus_append signed isWhole
  obtain ⟨digits, readFraction⟩ := isFraction.read
  obtain ⟨power, readExponent⟩ := isExponent.read
  refine ⟨⟨negative, whole, digits, power⟩, fun atEnd s ends => ?_⟩
  have afterFraction := isExponent.head ends
  have readWhole := isWhole.read atEnd (isFraction.head afterFraction)
  simp only [List.append_assoc, numeral, noSign, readWhole, bind, Except.bind,
    readFraction atEnd _ afterFraction, readExponent atEnd s ends]
  rfl

/-- A numeral is the same number wherever it stands. -/
lemma NumeralBody.number (body : NumeralBody bytes) :
    ∃ result : Except Fault Number, ∀ s, EndsNumeral s →
      Json.number (bytes ++ s) = result.map (·, s) := by
  obtain ⟨n, read⟩ := body.read
  refine ⟨n.value?.elim (.error .malformed) .ok, fun s ends => ?_⟩
  rw [Json.number, read .truncated s ends]
  simp only [bind, Except.bind]
  cases n.value? <;> rfl

/-- A numeral is passed over up to the byte that ends it. -/
lemma NumeralBody.skip (body : NumeralBody bytes) (ends : EndsNumeral s) :
    skipNumber (bytes ++ s) = .ok s := by
  obtain ⟨n, read⟩ := body.read
  rw [skipNumber, read .malformed s ends]
  rfl

end Numerals

end MetricRegistry.Json
