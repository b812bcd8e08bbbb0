import Mathlib.Algebra.Group.Nat.Defs
import Mathlib.Data.List.DropRight
import Mathlib.Tactic.Common
import MetricRegistry.Text.Ascii
import MetricRegistry.Text.Blank
import MetricRegistry.Text.Utf8

/-!
# Numerals between blanks

A `Numeral` is a decimal integer as it is written, with or without a sign and with any zeros in
front. `Numeral.Within` says that a text is a numeral but for blanks around it, which is what
`Text.trim` leaves of the text (`within_iff`); `utf8_eq_bytes` gives its bytes, from which no other
text is spelled.
-/

namespace MetricRegistry.Ascii

/-! ## Digits -/

/-- The codes of digits are next to each other. -/
lemma toNat_of_isDigit {c : Char} (digit : c.isDigit) : 48 ≤ c.toNat ∧ c.toNat ≤ 57 :=
  Char.isDigit_iff_toNat.mp digit

/-- A digit is one as a byte too, and stands for the same number. -/
lemma digit?_toUInt8 {c : Char} (digit : c.isDigit) :
    isDigit c.toNat.toUInt8 = true ∧ digit? c.toNat.toUInt8 = some (c.toNat - '0'.toNat) := by
  have range := toNat_of_isDigit digit
  have val : c.toNat.toUInt8.toNat = c.toNat := by
    simp only [Nat.toUInt8, UInt8.toNat_ofNat']
    omega
  have low : (0x30 : UInt8) ≤ c.toNat.toUInt8 := by
    rw [UInt8.le_iff_toNat_le, val]
    exact range.1
  have high : c.toNat.toUInt8 ≤ (0x39 : UInt8) := by
    rw [UInt8.le_iff_toNat_le, val]
    exact range.2
  simp [isDigit, digit?, low, high]
  omega

/-- The number that some digits spell is the one that their bytes spell. -/
lemma foldl_digit?_map {cs : List Char} (digits : ∀ c ∈ cs, c.isDigit) (n : Nat) :
    (cs.map fun c => c.toNat.toUInt8).foldl (fun n b => n * 10 + (digit? b).getD 0) n
      = Nat.ofDigitChars 10 cs n := by
  induction cs generalizing n with
  | nil => rfl
  | cons c cs ih =>
    rw [List.map_cons, List.foldl_cons, (digit?_toUInt8 (digits c (by simp))).2,
      ih (fun c' mem => digits c' (by simp [mem])), Nat.ofDigitChars_cons, Nat.mul_comm]
    rfl

/-- A digit stands for a number below ten, and no other byte for more. -/
lemma digit?_lt (b : UInt8) : (digit? b).getD 0 < 10 := by
  unfold digit?
  split
  case isTrue range =>
    simp only [Bool.and_eq_true, decide_eq_true_eq, UInt8.le_iff_toNat_le] at range
    have high : (0x39 : UInt8).toNat = 57 := rfl
    simp only [Option.getD_some]
    omega
  case isFalse => decide

/-- A number with a place more for every digit that is appended. -/
lemma foldl_digit?_lt (ds : List UInt8) (places : Nat) {n : Nat} (small : n < 10 ^ places) :
    ds.foldl (fun n b => n * 10 + (digit? b).getD 0) n < 10 ^ (places + ds.length) := by
  induction ds generalizing n places with
  | nil => exact small
  | cons d ds ih =>
    have digit := digit?_lt d
    rw [List.foldl_cons, List.length_cons, Nat.add_comm ds.length, ← Nat.add_assoc]
    refine ih (places + 1) ?_
    rw [Nat.pow_succ]
    omega

/-- A digit is no sign. -/
lemma ne_sign_of_isDigit {d : UInt8} (digit : isDigit d = true) : d ≠ plus ∧ d ≠ minus := by
  constructor <;> rintro rfl <;> revert digit <;> decide

/-- The character that a digit stands for. -/
lemma isDigit_ofNat {b : UInt8} (digit : isDigit b = true) :
    (Char.ofNat b.toNat).isDigit ∧ (Char.ofNat b.toNat).toNat.toUInt8 = b := by
  have range : 48 ≤ b.toNat ∧ b.toNat ≤ 57 := by
    simpa [isDigit, UInt8.le_iff_toNat_le] using digit
  have code : (Char.ofNat b.toNat).toNat = b.toNat := by
    rw [Char.ofNat, dif_pos (.inl (by omega))]
    rfl
  rw [Char.isDigit_iff_toNat, code]
  exact ⟨range, UInt8.ofNat_toNat⟩

end MetricRegistry.Ascii

namespace MetricRegistry.Text
open Ascii

/-! ## Bytes -/

/-- Texts with the same bytes are the same. -/
lemma utf8_injective : Function.Injective utf8 := by
  intro s t same
  have read := ofUtf8?_utf8 s
  rw [same, ofUtf8?_utf8] at read
  exact (Option.some.inj read).symm

/-- The bytes of ASCII characters are their codes. -/
lemma flatMap_utf8EncodeChar {cs : List Char} (ascii : ∀ c ∈ cs, c.toNat < 128) :
    cs.flatMap String.utf8EncodeChar = cs.map fun c => c.toNat.toUInt8 := by
  induction cs with
  | nil => rfl
  | cons c cs ih =>
    have small : c.utf8Size = 1 := by
      rw [Char.utf8Size_eq_one_iff, UInt32.le_iff_toNat_le]
      exact Nat.le_of_lt_succ (ascii c (by simp))
    rw [List.flatMap_cons, String.utf8EncodeChar_eq_singleton small, List.map_cons,
      ih fun c' mem => ascii c' (by simp [mem])]
    rfl

/-! ## Blanks around a text -/

variable {before cs after : List Char}

/-- What stands around a text that was trimmed is blank. -/
lemma exists_trimChars (cs : List Char) :
    ∃ before after, cs = before ++ trimChars cs ++ after ∧ (∀ c ∈ before, isBlank c = true)
      ∧ ∀ c ∈ after, isBlank c = true := by
  let rest := cs.dropWhile isBlank
  refine ⟨cs.takeWhile isBlank, (rest.reverse.takeWhile isBlank).reverse, ?_,
    fun c mem => List.mem_takeWhile_imp mem,
    fun c mem => List.mem_takeWhile_imp (List.mem_reverse.mp mem)⟩
  have split : trimChars cs ++ (rest.reverse.takeWhile isBlank).reverse = rest := by
    rw [trimChars, ← List.reverse_append, List.takeWhile_append_dropWhile, List.reverse_reverse]
  rw [List.append_assoc, split, List.takeWhile_append_dropWhile]

/-- Nothing is left of a text that is blank throughout. -/
lemma trim_eq_empty {s : String} : trim s = "" ↔ ∀ c ∈ s.toList, isBlank c = true := by
  rw [trim, String.ofList_eq_empty_iff]
  constructor
  · intro empty
    obtain ⟨before, after, eq, blank, blank'⟩ := exists_trimChars s.toList
    rw [eq, empty, List.append_nil]
    exact List.forall_mem_append.mpr ⟨blank, blank'⟩
  · intro blank
    rw [trimChars, List.dropWhile_eq_nil_iff.mpr blank]
    rfl

/-- The blanks at the front of a text are dropped up to its first ink. -/
lemma dropWhile_isBlank (blank : ∀ c ∈ before, isBlank c = true)
    (ink : ∀ c ∈ cs.head?, isBlank c = false) : (before ++ cs).dropWhile isBlank = cs := by
  rw [List.dropWhile_append_of_pos blank]
  cases cs with
  | nil => rfl
  | cons c cs => exact List.dropWhile_cons_of_neg (by simp [ink c rfl])

/-- A text that neither starts nor ends with a blank is left when blanks are put around it and
trimmed. -/
lemma trimChars_append (blank : ∀ c ∈ before, isBlank c = true)
    (blank' : ∀ c ∈ after, isBlank c = true) (ne : cs ≠ [])
    (starts : ∀ c ∈ cs.head?, isBlank c = false)
    (ends : ∀ c ∈ cs.getLast?, isBlank c = false) : trimChars (before ++ cs ++ after) = cs := by
  have starts' : ∀ c ∈ (cs ++ after).head?, isBlank c = false := by
    rwa [List.head?_append_of_ne_nil _ ne]
  rw [trimChars, List.append_assoc, dropWhile_isBlank blank starts', List.reverse_append,
    dropWhile_isBlank (by simpa using blank') (by simpa using ends), List.reverse_reverse]

/-! ## Numerals -/

/-- A decimal integer as it is written. -/
structure Numeral where
  /-- A plus, a minus or nothing. -/
  sign : List Char
  digits : List Char
  signed : sign ∈ [[], ['+'], ['-']]
  written : digits ≠ []
  decimal : ∀ c ∈ digits, c.isDigit

namespace Numeral

variable {n : Numeral}

/-- The characters of a numeral. -/
def chars (n : Numeral) : List Char :=
  n.sign ++ n.digits

/-- The bytes of a numeral. -/
def bytes (n : Numeral) : List UInt8 :=
  n.chars.map fun c => c.toNat.toUInt8

/-- The number without its sign. -/
def size (n : Numeral) : Nat :=
  Nat.ofDigitChars 10 n.digits 0

/-- The integer that a numeral denotes. -/
def value (n : Numeral) : Int :=
  if n.sign = ['-'] then -n.size else n.size

/-- A numeral with three zeros appended. -/
def thousandfold (n : Numeral) : Numeral where
  sign := n.sign
  digits := n.digits ++ ['0', '0', '0']
  signed := n.signed
  written := by simp
  decimal c mem := by
    obtain old | new := List.mem_append.mp mem
    · exact n.decimal c old
    · obtain rfl : c = '0' := by simpa using new
      rfl

/-- Three more zeros are a thousand times the number. -/
@[simp]
lemma value_thousandfold (n : Numeral) : n.thousandfold.value = n.value * 1000 := by
  have size : n.thousandfold.size = n.size * 1000 := by
    simp only [Numeral.size, thousandfold, Nat.ofDigitChars_append]
    simp [Nat.ofDigitChars_cons]
    omega
  have sign : n.thousandfold.sign = n.sign := rfl
  rw [value, value, size, sign]
  split <;> omega

/-- A numeral is made of signs and digits. -/
lemma mem_chars {c : Char} (mem : c ∈ n.chars) : c = '+' ∨ c = '-' ∨ c.isDigit := by
  obtain sign | digit := List.mem_append.mp mem
  · have signed := n.signed
    simp only [List.mem_cons, List.not_mem_nil, or_false] at signed
    obtain eq | eq | eq := signed <;> simp_all
  · exact .inr (.inr (n.decimal c digit))

/-- A numeral is made of ASCII characters, none of them blank. -/
lemma ascii_of_mem {c : Char} (mem : c ∈ n.chars) : c.toNat < 128 ∧ isBlank c = false := by
  obtain rfl | rfl | digit := n.mem_chars mem
  · decide
  · decide
  · have range := toNat_of_isDigit digit
    have ink : ∀ m < 58, 48 ≤ m → whiteSpace.containsCode m = false := by decide
    exact ⟨by omega, ink _ (by omega) range.1⟩

/-- A numeral has at least one character. -/
lemma chars_ne_nil : n.chars ≠ [] :=
  List.append_ne_nil_of_right_ne_nil _ n.written

/-- A text that is the numeral but for blanks around it. -/
def Within (n : Numeral) (raw : String) : Prop :=
  ∃ before after, raw.toList = before ++ n.chars ++ after ∧ (∀ c ∈ before, isBlank c = true)
    ∧ ∀ c ∈ after, isBlank c = true

/-- A text is a numeral but for blanks around it if the numeral is left of it when it is trimmed. -/
lemma within_iff {raw : String} : n.Within raw ↔ (trim raw).toList = n.chars := by
  rw [trim, String.toList_ofList]
  constructor
  · rintro ⟨before, after, eq, blank, blank'⟩
    rw [eq]
    exact trimChars_append blank blank' n.chars_ne_nil
      (fun c mem => (n.ascii_of_mem (List.mem_of_mem_head? mem)).2)
      (fun c mem => (n.ascii_of_mem (List.mem_of_getLast? mem)).2)
  · intro trimmed
    obtain ⟨before, after, eq, blank, blank'⟩ := exists_trimChars raw.toList
    exact ⟨before, after, trimmed ▸ eq, blank, blank'⟩

/-- The bytes of a numeral are those of no other text. -/
lemma utf8_eq_bytes {s : String} : utf8 s = n.bytes ↔ s.toList = n.chars := by
  have own : utf8 (String.ofList n.chars) = n.bytes := by
    rw [utf8, String.toList_ofList]
    exact flatMap_utf8EncodeChar fun c mem => (n.ascii_of_mem mem).1
  rw [← own, utf8_injective.eq_iff, String.ext_iff, String.toList_ofList]

end Numeral

end MetricRegistry.Text
