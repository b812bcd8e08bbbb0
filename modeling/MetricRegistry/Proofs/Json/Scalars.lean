import Mathlib.Tactic.Common
import MetricRegistry.Json.Printer
import MetricRegistry.Proofs.Text.Numerals

/-!
# Scalars are read back

What the printer writes for a text or for a natural number, the readers take off the front of any
longer text and give back. `string_quoted` says so for `string` and every text, whatever its
characters: an escape is read as the byte or the code unit it stands for (`stringBytes_quotedChar`),
and every other byte of the UTF-8 form stands for itself (`IsPlain`). `uint32_natBytes` says so for
`uint32`, where what follows must not go on with the numeral (`EndsNumeral`).
-/

namespace MetricRegistry.Json
open Ascii

/-! ## Strings -/

/-- A byte that stands for itself in a string. -/
def IsPlain (b : UInt8) : Prop :=
  b ≠ quote ∧ b ≠ backslash ∧ ¬ b < space

/-- No bytes in front change nothing. -/
lemma prependBytes_nil (r : Except Fault (List UInt8 × List UInt8)) : prependBytes [] r = r := by
  cases r <;> simp [prependBytes, Except.map]

/-- Bytes are put in front one after the other. -/
lemma prependBytes_append (a b : List UInt8) (r : Except Fault (List UInt8 × List UInt8)) :
    prependBytes (a ++ b) r = prependBytes a (prependBytes b r) := by
  cases r <;> simp [prependBytes, Except.map]

/-- A plain byte of a string stands for itself. -/
lemma stringBytes_plain {b : UInt8} (s : List UInt8) (plain : IsPlain b) :
    stringBytes (b :: s) = prependBytes [b] (stringBytes s) := by
  obtain ⟨noQuote, noBackslash, noControl⟩ := plain
  rw [stringBytes.eq_7 b s noQuote (fun h => absurd h noBackslash)
    (fun _ _ _ _ _ h => absurd h noBackslash) (fun _ h => absurd h noBackslash)
    (fun _ _ h => absurd h noBackslash), if_neg noControl]

/-- Plain bytes of a string stand for themselves. -/
lemma stringBytes_plains {bytes : List UInt8} (s : List UInt8) (plain : ∀ b ∈ bytes, IsPlain b) :
    stringBytes (bytes ++ s) = prependBytes bytes (stringBytes s) := by
  induction bytes with
  | nil => exact (prependBytes_nil _).symm
  | cons b bytes ih =>
    rw [List.cons_append, stringBytes_plain _ (plain b (by simp)),
      ih fun b' mem => plain b' (by simp [mem]), ← prependBytes_append, List.singleton_append]

/-- A backslash and one more byte are read as the byte they stand for. -/
lemma stringBytes_short {e b : UInt8} (s : List UInt8) (ne : e ≠ lowerU)
    (eq : shortEscape? e = some b) :
    stringBytes (backslash :: e :: s) = prependBytes [b] (stringBytes s) := by
  refine (stringBytes.eq_6 e s (fun _ _ _ _ _ h => absurd h ne) (fun h => absurd h ne)).trans ?_
  rw [eq]

/-- Four hexadecimal digits below the surrogates are read as their code point. -/
lemma stringBytes_unit {a b c d : UInt8} {unit : Nat} (s : List UInt8)
    (eq : hex4? a b c d = some unit) (small : unit < 0xD800) :
    stringBytes (backslash :: lowerU :: a :: b :: c :: d :: s)
      = prependBytes (codeBytes unit) (stringBytes s) := by
  have notLow : isLowSurrogate unit = false := by simp [isLowSurrogate]; omega
  have notHigh : isHighSurrogate unit = false := by simp [isHighSurrogate]; omega
  refine (stringBytes.eq_4 a b c d s).trans ?_
  simp [eq, notLow, notHigh]

/-- The two digits of a control's escape spell the control. -/
lemma hex4?_control : ∀ n < 0x20,
    hex4? zero zero (lowerHexDigit (n / 16)) (lowerHexDigit (n % 16)) = some n := by
  decide

/-- The bytes of a character beyond ASCII are plain. -/
lemma isPlain_of_le {b : UInt8} (high : 0x80 ≤ b.toNat) : IsPlain b := by
  refine ⟨?_, ?_, ?_⟩
  · rintro rfl
    revert high
    decide
  · rintro rfl
    revert high
    decide
  · rw [UInt8.lt_iff_toNat_lt]
    have : space.toNat = 0x20 := rfl
    omega

/-- The UTF-8 form of a character that needs no escape is plain. -/
lemma isPlain_of_mem_utf8EncodeChar {c : Char} (notQuote : c ≠ '"') (notBackslash : c ≠ '\\')
    (notControl : ¬ c.toNat < 0x20) : ∀ b ∈ String.utf8EncodeChar c, IsPlain b := by
  intro b mem
  have eq_of_toNat (c' : Char) (h : c.toNat = c'.toNat) : c = c' := by
    rw [← Char.ofNat_toNat c, h, Char.ofNat_toNat]
  unfold String.utf8EncodeChar at mem
  by_cases ascii : c.val.toNat ≤ 0x7F
  · simp only [ascii, if_true, List.mem_singleton] at mem
    have val : b.toNat = c.toNat := by
      rw [mem, UInt8.toNat_ofNat']
      simp only [Char.toNat]
      omega
    refine ⟨?_, ?_, ?_⟩
    · rintro rfl
      exact notQuote (eq_of_toNat '"' val.symm)
    · rintro rfl
      exact notBackslash (eq_of_toNat '\\' val.symm)
    · rw [UInt8.lt_iff_toNat_lt, val]
      exact notControl
  · -- every byte of a longer form has its highest bit set
    apply isPlain_of_le
    simp only [ascii, if_false] at mem
    split at mem <;> [skip; split at mem] <;>
      simp only [List.mem_cons, List.not_mem_nil, or_false] at mem <;>
      rcases mem with rfl | rfl | rfl | rfl <;>
      rw [UInt8.toNat_ofNat'] <;> omega

/-- A character of a string is read from what is written for it. -/
lemma stringBytes_quotedChar (c : Char) (s : List UInt8) :
    stringBytes (quotedChar c ++ s) = prependBytes (String.utf8EncodeChar c) (stringBytes s) := by
  unfold quotedChar
  split
  -- characters without a short escape: controls by their code, all others as they are
  case h_8 notQuote notBackslash _ _ _ _ _ =>
    split
    case isTrue control =>
      have small : c.toNat < 0xD800 := by omega
      have code : codeBytes c.toNat = String.utf8EncodeChar c := by
        rw [codeBytes, Char.ofNat_toNat]
      exact code ▸ stringBytes_unit s (hex4?_control _ control) small
    case isFalse notControl =>
      exact stringBytes_plains s (isPlain_of_mem_utf8EncodeChar notQuote notBackslash notControl)
  all_goals exact stringBytes_short s (by decide) rfl

/-- What is written for characters is read as their UTF-8 form, up to the closing quote. -/
lemma stringBytes_quoted (cs : List Char) (s : List UInt8) :
    stringBytes (cs.flatMap quotedChar ++ quote :: s)
      = .ok (cs.flatMap String.utf8EncodeChar, s) := by
  induction cs with
  | nil => exact stringBytes.eq_2 s
  | cons c cs ih =>
    simp only [List.flatMap_cons, List.append_assoc]
    rw [stringBytes_quotedChar, ih]
    rfl

/-- A text written between quotes is read back after its opening quote. -/
lemma string_quoted (t : String) (s : List UInt8) :
    string (t.toList.flatMap quotedChar ++ quote :: s) = .ok (t, s) := by
  have read : Text.ofUtf8? (t.toList.flatMap String.utf8EncodeChar) = some t :=
    Text.ofUtf8?_utf8 t
  unfold string
  rw [stringBytes_quoted]
  simp only [bind, Except.bind, read]
  rfl

/-! ## Numbers -/

/-- A text that does not go on with a numeral that stands before it. -/
def EndsNumeral (s : List UInt8) : Prop :=
  ∀ b ∈ s.head?, isDigit b = false ∧ b ≠ dot ∧ b ≠ lowerE ∧ b ≠ upperE

/-- A numeral ends at the end of the text. -/
lemma endsNumeral_nil : EndsNumeral [] := by
  intro b mem
  cases mem

/-- A natural number is written in digits. -/
lemma isDigit_natBytes (n : Nat) : ∀ b ∈ natBytes n, isDigit b = true := by
  intro b mem
  obtain ⟨c, cmem, rfl⟩ := List.mem_map.mp mem
  exact (digit?_toUInt8 (Nat.isDigit_of_mem_toDigits (by decide) (by decide) cmem)).1

/-- The digits written for a natural number denote it. -/
@[simp]
lemma natOfDigits_natBytes (n : Nat) : natOfDigits (natBytes n) = n := by
  unfold natOfDigits natBytes
  rw [foldl_digit?_map fun c mem => Nat.isDigit_of_mem_toDigits (by decide) (by decide) mem]
  exact Nat.ofDigitChars_ten_toDigits

/-- A number below ten is written in one digit. -/
lemma natBytes_of_lt {n : Nat} (small : n < 10) : natBytes n = [n.digitChar.toNat.toUInt8] := by
  simp [natBytes, Nat.toDigits_of_lt_base small]

/-- The last digit of a longer numeral stands behind the others. -/
lemma natBytes_of_le {n : Nat} (large : 10 ≤ n) :
    natBytes n = natBytes (n / 10) ++ natBytes (n % 10) := by
  have split := Nat.toDigits_append_toDigits (b := 10) (n := n / 10) (d := n % 10)
    (by decide) (by omega) (by omega)
  rw [Nat.div_add_mod] at split
  simp only [natBytes, ← split, List.map_append]

/-- A positive number is written without a zero in front. -/
lemma natBytes_of_pos (n : Nat) (pos : 0 < n) : ∃ d ds, natBytes n = d :: ds ∧ d ≠ zero := by
  -- the last digit is split off, and the first one stays where it is
  induction n using Nat.strongRecOn with
  | ind n ih =>
    by_cases small : n < 10
    · refine ⟨n.digitChar.toNat.toUInt8, [], natBytes_of_lt small, ?_⟩
      have single : ∀ m < 10, 0 < m → m.digitChar.toNat.toUInt8 ≠ zero := by decide
      exact single n small pos
    · obtain ⟨d, ds, eq, ne⟩ := ih (n / 10) (by omega) (by omega)
      refine ⟨d, ds ++ natBytes (n % 10), ?_, ne⟩
      rw [natBytes_of_le (Nat.le_of_not_lt small), eq, List.cons_append]

/-- A natural number is written in at least one digit. -/
lemma natBytes_eq_cons (n : Nat) : ∃ d ds, natBytes n = d :: ds ∧ isDigit d = true := by
  cases eq : natBytes n with
  | nil => simp [natBytes, Nat.toDigits_ne_nil] at eq
  | cons d ds => exact ⟨d, ds, rfl, isDigit_natBytes n d (by simp [eq])⟩

/-- The digits at the front of a text are those up to the first byte that is none. -/
lemma takeWhile_isDigit {ds s : List UInt8} (digits : ∀ b ∈ ds, isDigit b = true)
    (ends : ∀ b ∈ s.head?, isDigit b = false) :
    (ds ++ s).takeWhile isDigit = ds ∧ (ds ++ s).dropWhile isDigit = s := by
  induction ds with
  | nil =>
    cases s with
    | nil => exact ⟨rfl, rfl⟩
    | cons b s => simp [ends b rfl]
  | cons d ds ih =>
    have digit := digits d (by simp)
    have rest := ih fun b mem => digits b (by simp [mem])
    simp [digit, rest]

/-- The whole part of a number is read from its digits. -/
lemma wholePart_natBytes (n : Nat) (atEnd : Fault) {s : List UInt8} (ends : EndsNumeral s) :
    wholePart atEnd (natBytes n ++ s) = .ok (natBytes n, s) := by
  rcases Nat.eq_zero_or_pos n with rfl | pos
  · cases s with
    | nil => rfl
    | cons b s =>
      have notDigit := (ends b (by simp)).1
      show wholePart atEnd (zero :: b :: s) = .ok ([zero], b :: s)
      simp [wholePart, notDigit]
  · obtain ⟨d, ds, eq, ne⟩ := natBytes_of_pos n pos
    have digits := isDigit_natBytes n
    rw [eq] at digits ⊢
    have tail : ∀ b ∈ ds, isDigit b = true := fun b mem => digits b (by simp [mem])
    obtain ⟨taken, dropped⟩ := takeWhile_isDigit tail fun b mem => (ends b mem).1
    simp [wholePart, ne, digits d (by simp), taken, dropped]

/-- A natural number is read as a numeral without sign, fraction and exponent. -/
lemma numeral_natBytes (n : Nat) (atEnd : Fault) {s : List UInt8} (ends : EndsNumeral s) :
    numeral atEnd (natBytes n ++ s) = .ok (⟨false, natBytes n, [], none⟩, s) := by
  have noMinus : leadingMinus (natBytes n ++ s) = (false, natBytes n ++ s) := by
    obtain ⟨d, ds, eq, digit⟩ := natBytes_eq_cons n
    have ne : d ≠ minus := by
      rintro rfl
      exact absurd digit (by decide)
    simp [eq, leadingMinus, ne]
  have noFraction : fractionPart atEnd s = .ok ([], s) := by
    cases s with
    | nil => rfl
    | cons b s => simp [fractionPart, (ends b (by simp)).2.1]
  have noExponent : exponentPart atEnd s = .ok (none, s) := by
    cases s with
    | nil => rfl
    | cons b s => simp [exponentPart, (ends b (by simp)).2.2]
  simp [numeral, noMinus, wholePart_natBytes n atEnd ends, noFraction, noExponent, bind,
    Except.bind, pure, Except.pure]

/-- A natural number of 64 bits is read from its digits. -/
lemma number_natBytes {n : Nat} (small : n < UInt64.size) {s : List UInt8}
    (ends : EndsNumeral s) : number (natBytes n ++ s) = .ok (.integer n, s) := by
  have value : Numeral.value? ⟨false, natBytes n, [], none⟩ = some (.integer n) := by
    simp [Numeral.value?, small]
  unfold number
  rw [numeral_natBytes n .truncated ends]
  simp [bind, Except.bind, value, pure, Except.pure]

/-- A digit is no blank. -/
lemma isSpace_of_isDigit {b : UInt8} (digit : isDigit b = true) : isSpace b = false := by
  by_contra blank
  simp only [isSpace, Bool.not_eq_false, Bool.or_eq_true, beq_iff_eq] at blank
  rcases blank with ((rfl | rfl) | rfl) | rfl <;> exact absurd digit (by decide)

/-- An integer of 32 bits is read from its digits. -/
lemma uint32_natBytes (n : UInt32) {s : List UInt8} (ends : EndsNumeral s) :
    uint32 (natBytes n.toNat ++ s) = .ok (n, s) := by
  have small := n.toNat_lt
  have read := number_natBytes (n := n.toNat) (Nat.lt_trans small (by decide)) ends
  obtain ⟨d, ds, eq, digit⟩ := natBytes_eq_cons n.toNat
  rw [eq, List.cons_append] at read ⊢
  have back : n.toNat.toUInt32 = n := by simp
  simp [uint32, skipSpace, isSpace_of_isDigit digit, digit, read, bind, Except.bind, pure,
    Except.pure, UInt32.size, small, back]

end MetricRegistry.Json
