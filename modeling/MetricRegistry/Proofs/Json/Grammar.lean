import MetricRegistry.Proofs.Json.Containers

/-!
# JSON texts and their trees

A `Tree` is a JSON value as it is spelled, without the blanks between its tokens: words, numerals
and strings stand in it with their own bytes, members in their order. `Spells` is the grammar: it
says which bytes spell a tree, with whatever blanks. The relation goes along the loops that read
arrays and objects, so that a `Part` of a text is a value or what is left of a container.
-/

namespace MetricRegistry.Json
open Ascii

/-! ## Tokens -/

/-- Nothing but blanks. -/
def Blank (bytes : List UInt8) : Prop :=
  ∀ b ∈ bytes, isSpace b = true

instance : DecidablePred Blank := fun bytes =>
  decidable_of_iff (bytes.all isSpace = true) List.all_eq_true

/-- What may stand between the quotes of a string. -/
inductive StringBody : List UInt8 → Prop where
  | nil :
    StringBody []
  | plain {b s} :
    IsPlain b →
    StringBody s →
    StringBody (b :: s)
  | short {e s} :
    (shortEscape? e).isSome = true →
    StringBody s →
    StringBody (backslash :: e :: s)
  | unit {a b c d s} :
    (hex4? a b c d).isSome = true →
    StringBody s →
    StringBody (backslash :: lowerU :: a :: b :: c :: d :: s)

/-- One digit or more. -/
def Digits (ds : List UInt8) : Prop :=
  ds ≠ [] ∧ ∀ b ∈ ds, isDigit b = true

/-- A whole number without superfluous zeros. -/
inductive WholeBody : List UInt8 → Prop where
  | lone :
    WholeBody [zero]
  | digits {d ds} :
    d ≠ zero →
    Digits (d :: ds) →
    WholeBody (d :: ds)

/-- A fraction, which may be absent. -/
inductive FractionBody : List UInt8 → Prop where
  | none :
    FractionBody []
  | digits {ds} :
    Digits ds →
    FractionBody (dot :: ds)

/-- An exponent, which may be absent. -/
inductive ExponentBody : List UInt8 → Prop where
  | none :
    ExponentBody []
  | digits {e sign ds} :
    e = lowerE ∨ e = upperE →
    sign ∈ [[], [plus], [minus]] →
    Digits ds →
    ExponentBody (e :: (sign ++ ds))

/-- A numeral. -/
inductive NumeralBody : List UInt8 → Prop where
  | parts {sign whole fraction exponent} :
    sign ∈ [[], [minus]] →
    WholeBody whole →
    FractionBody fraction →
    ExponentBody exponent →
    NumeralBody (sign ++ (whole ++ (fraction ++ exponent)))

/-- The spelling of a string. -/
abbrev StringText := { s : List UInt8 // StringBody s }

/-- The spelling of a number. -/
abbrev NumeralText := { s : List UInt8 // NumeralBody s }

/-- A string between its quotes. -/
def StringText.bytes (t : StringText) : List UInt8 :=
  quote :: (t.1 ++ [quote])

/-- The words of JSON. -/
inductive Word where
  | null
  | true
  | false
  deriving DecidableEq, Repr

/-- The first letter of a word. -/
def Word.head : Word → UInt8
  | .null => lowerN
  | .true => lowerT
  | .false => lowerF

/-- The letters of a word after the first. -/
def Word.tail : Word → List UInt8
  | .null => [lowerU, 0x6C, 0x6C]
  | .true => [lowerR, lowerU, lowerE]
  | .false => [0x61, 0x6C, 0x73, lowerE]

/-! ## Trees -/

/-- A value as it is spelled. -/
inductive Tree where
  | word (w : Word)
  | number (n : NumeralText)
  | string (t : StringText)
  | array (items : List Tree)
  | object (members : List (StringText × Tree))

/-- A part of a text: a value, or what is left of a container, to its end. The mark says that no
item or member came before. -/
inductive Part where
  | value (v : Tree)
  | items (first : Bool) (vs : List Tree)
  | members (first : Bool) (ms : List (StringText × Tree))

/-- What stands before the next item or member. -/
inductive Separates : Bool → List UInt8 → Prop where
  | first :
    Separates true []
  | comma {blanks} :
    Blank blanks →
    Separates false (blanks ++ [comma])

/-- Bytes spell a part of a text. -/
inductive Spells : Part → List UInt8 → Prop where
  | word {w blanks} :
    Blank blanks →
    Spells (.value (.word w)) (blanks ++ w.head :: w.tail)
  | number {n blanks} :
    Blank blanks →
    Spells (.value (.number n)) (blanks ++ n.1)
  | string {t blanks} :
    Blank blanks →
    Spells (.value (.string t)) (blanks ++ t.bytes)
  | array {vs blanks bytes} :
    Blank blanks →
    Spells (.items true vs) bytes →
    Spells (.value (.array vs)) (blanks ++ openBracket :: bytes)
  | object {ms blanks bytes} :
    Blank blanks →
    Spells (.members true ms) bytes →
    Spells (.value (.object ms)) (blanks ++ openBrace :: bytes)
  | endItems {first blanks} :
    Blank blanks →
    Spells (.items first []) (blanks ++ [closeBracket])
  | item {first v vs before bytes more} :
    Separates first before →
    Spells (.value v) bytes →
    Spells (.items false vs) more →
    Spells (.items first (v :: vs)) (before ++ (bytes ++ more))
  | endMembers {first blanks} :
    Blank blanks →
    Spells (.members first []) (blanks ++ [closeBrace])
  | member {first t v ms before blanks blanks' bytes more} :
    Separates first before →
    Blank blanks →
    Blank blanks' →
    Spells (.value v) bytes →
    Spells (.members false ms) more →
    Spells (.members first ((t, v) :: ms))
      (before ++ (blanks ++ (t.bytes ++ (blanks' ++ colon :: (bytes ++ more)))))

/-- A text spells a tree, with blanks around it. -/
def Spelled (text : List UInt8) (v : Tree) : Prop :=
  ∃ bytes blanks, text = bytes ++ blanks ∧ Spells (.value v) bytes ∧ Blank blanks

/-! ## Where tokens start -/

/-- The byte that a value starts with. -/
def Tree.head : Tree → UInt8
  | .word w => w.head
  | .number n => n.1.headD minus
  | .string _ => quote
  | .array _ => openBracket
  | .object _ => openBrace

/-- Nothing is blank. -/
lemma blank_nil : Blank [] :=
  nofun

/-- Blanks in front of a text are skipped. -/
lemma skipSpace_blanks {blanks : List UInt8} (blank : Blank blanks) (s : List UInt8) :
    skipSpace (blanks ++ s) = skipSpace s := by
  induction blanks with
  | nil => rfl
  | cons b blanks ih =>
    obtain ⟨space, rest⟩ := List.forall_mem_cons.mp blank
    simpa [skipSpace, space] using ih rest

/-- Blanks before a byte that is none are passed over up to it. -/
lemma skipSpace_ink {blanks : List UInt8} (blank : Blank blanks) {b : UInt8}
    (ink : isSpace b = false) (s : List UInt8) : skipSpace (blanks ++ b :: s) = b :: s := by
  rw [skipSpace_blanks blank, skipSpace_cons s ink]

/-- A whole part starts with a digit. -/
lemma WholeBody.head {bytes : List UInt8} (whole : WholeBody bytes) :
    ∃ d ds, bytes = d :: ds ∧ isDigit d = true := by
  cases whole with
  | lone => exact ⟨zero, [], rfl, rfl⟩
  | @digits d ds _ digits => exact ⟨d, ds, rfl, digits.2 d (List.mem_cons_self ..)⟩

/-- A numeral starts with a minus or with a digit. -/
lemma NumeralBody.head {bytes : List UInt8} (numeral : NumeralBody bytes) :
    ∃ b tail, bytes = b :: tail ∧ (b = minus ∨ isDigit b = true) := by
  cases numeral with
  | @parts sign whole fraction exponent signed number _ _ =>
  obtain ⟨d, ds, rfl, digit⟩ := number.head
  obtain rfl | rfl : sign = [] ∨ sign = [minus] := by simpa using signed
  · exact ⟨d, _, rfl, .inr digit⟩
  · exact ⟨minus, _, rfl, .inl rfl⟩

/-- The bytes that start anything but a number. -/
lemma not_mem_of_numeral {b : UInt8} (start : b = minus ∨ isDigit b = true) :
    b ∉ [quote, openBracket, openBrace, lowerN, lowerT, lowerF, closeBracket, closeBrace, comma,
      space, lineFeed, tab, carriageReturn] := by
  intro mem
  have others : ([quote, openBracket, openBrace, lowerN, lowerT, lowerF, closeBracket, closeBrace,
      comma, space, lineFeed, tab, carriageReturn].all
        fun c => c != minus && !isDigit c) = true := by
    decide
  have other := List.all_eq_true.mp others b mem
  simp only [Bool.and_eq_true, bne_iff_ne, Bool.not_eq_true'] at other
  rcases start with eq | digit
  · exact other.1 eq
  · rw [digit] at other
    cases other.2

namespace Tree

/-- The head of a number is a minus or a digit. -/
lemma head_number (n : NumeralText) :
    (number n).head = minus ∨ isDigit (number n).head = true := by
  obtain ⟨b, tail, eq, start⟩ := n.2.head
  rwa [head, eq]

/-- What a value starts with is no blank and closes nothing. -/
lemma head_not_mem (v : Tree) :
    v.head ∉ [closeBracket, closeBrace, comma, space, lineFeed, tab, carriageReturn] := by
  cases v with
  | word w => cases w <;> decide
  | number n =>
    have other := not_mem_of_numeral (head_number n)
    simp only [List.mem_cons, not_or] at other ⊢
    grind
  | string t =>
    rw [head]
    decide
  | array vs =>
    rw [head]
    decide
  | object ms =>
    rw [head]
    decide

/-- The head of a value is no blank. -/
lemma head_ink (v : Tree) : isSpace v.head = false := by
  have other := v.head_not_mem
  simp only [List.mem_cons, not_or] at other
  simp [isSpace, other]

end Tree

namespace Tree

/-- What a value is spelled with after the byte that it starts with. -/
def Tail (v : Tree) (tail : List UInt8) : Prop :=
  match v with
  | .word w => tail = w.tail
  | .number n => v.head :: tail = n.1
  | .string t => tail = t.1 ++ [quote]
  | .array vs => Spells (.items true vs) tail
  | .object ms => Spells (.members true ms) tail

/-- What a value starts with tells its kind. -/
lemma head_iff (v : Tree) :
    (v.head = quote ↔ ∃ t, v = .string t) ∧ (v.head = openBracket ↔ ∃ vs, v = .array vs)
      ∧ (v.head = openBrace ↔ ∃ ms, v = .object ms) ∧ (v.head = lowerN ↔ v = .word .null) := by
  cases v with
  | word w => cases w <;> simp [head, Word.head] <;> decide
  | number n =>
    have other := not_mem_of_numeral (head_number n)
    simp only [List.mem_cons, not_or] at other
    simp [other]
  | _ =>
    simp [head]
    decide

/-- A value with the head of a numeral is a number. -/
lemma head_numeral {v : Tree} :
    (v.head == minus || isDigit v.head) = true ↔ ∃ n, v = .number n := by
  cases v with
  | word w => cases w <;> simp [head, Word.head] <;> decide
  | number n => simpa using head_number n
  | _ =>
    simp [head]
    decide

end Tree

/-- A value is spelled by blanks, the byte that it starts with and what comes after that. -/
lemma spells_value_iff {v : Tree} {bytes : List UInt8} :
    Spells (.value v) bytes
      ↔ ∃ blanks tail, Blank blanks ∧ v.Tail tail ∧ bytes = blanks ++ v.head :: tail := by
  constructor
  · intro spells
    cases spells with
    | @word w blanks blank => exact ⟨blanks, _, blank, rfl, rfl⟩
    | @number n blanks blank =>
      obtain ⟨b, tail, eq, -⟩ := n.2.head
      have whole : (Tree.number n).head :: tail = n.1 := by rw [Tree.head, eq]; rfl
      exact ⟨blanks, tail, blank, whole, by rw [whole]⟩
    | @string t blanks blank => exact ⟨blanks, _, blank, rfl, rfl⟩
    | @array vs blanks bytes blank items => exact ⟨blanks, _, blank, items, rfl⟩
    | @object ms blanks bytes blank members => exact ⟨blanks, _, blank, members, rfl⟩
  · rintro ⟨blanks, tail, blank, tailed, rfl⟩
    cases v with
    | word w =>
      obtain rfl := tailed
      exact .word blank
    | number n =>
      rw [show (Tree.number n).head :: tail = n.1 from tailed]
      exact .number blank
    | string t =>
      obtain rfl := tailed
      exact .string blank
    | array vs => exact .array blank tailed
    | object ms => exact .object blank tailed

/-- A numeral ends before blanks if it ends after them. -/
lemma Blank.endsNumeral {blanks s : List UInt8} (blank : Blank blanks) (ends : EndsNumeral s) :
    EndsNumeral (blanks ++ s) := by
  cases blanks with
  | nil => exact ends
  | cons c blanks =>
    have space := blank c (List.mem_cons_self ..)
    refine endsNumeral_cons _ ?_
    simp only [isSpace, Bool.or_eq_true, beq_iff_eq] at space
    rcases space with ((rfl | rfl) | rfl) | rfl <;> decide

/-- What is left of a container does not go on with a numeral. -/
lemma Spells.endsNumeral_items {vs : List Tree} {bytes : List UInt8}
    (spells : Spells (.items false vs) bytes) (s : List UInt8) : EndsNumeral (bytes ++ s) := by
  cases spells with
  | endItems blank =>
    rw [List.append_assoc]
    exact blank.endsNumeral (endsNumeral_cons s (by decide))
  | item separates =>
    cases separates with
    | comma blank =>
      simp only [List.append_assoc]
      exact blank.endsNumeral (endsNumeral_cons _ (by decide))

/-- A numeral ends where the members after it go on. -/
lemma Spells.endsNumeral_members {ms : List (StringText × Tree)} {bytes : List UInt8}
    (spells : Spells (.members false ms) bytes) (s : List UInt8) : EndsNumeral (bytes ++ s) := by
  cases spells with
  | endMembers blank =>
    rw [List.append_assoc]
    exact blank.endsNumeral (endsNumeral_cons s (by decide))
  | member separates =>
    cases separates with
    | comma blank =>
      simp only [List.append_assoc]
      exact blank.endsNumeral (endsNumeral_cons _ (by decide))

/-- Every item takes a byte, and so does the bracket. -/
lemma Spells.length_items {first : Bool} {vs : List Tree} {bytes : List UInt8}
    (spells : Spells (.items first vs) bytes) : vs.length < bytes.length := by
  induction vs generalizing first bytes with
  | nil =>
    cases spells
    simp
  | cons v vs ih =>
    cases spells with
    | item separates value items =>
      obtain ⟨blanks, tail, -, -, rfl⟩ := spells_value_iff.mp value
      have rest := ih items
      simp only [List.length_append, List.length_cons]
      omega

/-- Each member takes a byte, and so does the end of them. -/
lemma Spells.length_members {first : Bool} {ms : List (StringText × Tree)} {bytes : List UInt8}
    (spells : Spells (.members first ms) bytes) : ms.length < bytes.length := by
  induction ms generalizing first bytes with
  | nil =>
    cases spells
    simp
  | cons m ms ih =>
    cases spells with
    | member _ _ _ _ members =>
      have rest := ih members
      simp only [List.length_append, List.length_cons]
      omega

/-! ## Every tree is spelled -/

section Gap

/-- What stands before an item or member that has a gap before each of its tokens. -/
def separator (gap : List UInt8) (first : Bool) : List UInt8 :=
  if first then [] else gap ++ [comma]

mutual

/-- A value with a gap before each of its tokens. -/
def Tree.bytes (gap : List UInt8) : Tree → List UInt8
  | .word w => gap ++ w.head :: w.tail
  | .number n => gap ++ n.1
  | .string t => gap ++ t.bytes
  | .array vs => gap ++ openBracket :: itemsBytes gap true vs
  | .object ms => gap ++ openBrace :: membersBytes gap true ms

/-- What is left of an array. -/
def itemsBytes (gap : List UInt8) (first : Bool) : List Tree → List UInt8
  | [] => gap ++ [closeBracket]
  | v :: vs => separator gap first ++ (v.bytes gap ++ itemsBytes gap false vs)

/-- What is left of an object. -/
def membersBytes (gap : List UInt8) (first : Bool) : List (StringText × Tree) → List UInt8
  | [] => gap ++ [closeBrace]
  | (t, v) :: ms =>
    separator gap first
      ++ (gap ++ (t.bytes ++ (gap ++ colon :: (v.bytes gap ++ membersBytes gap false ms))))

end

variable {gap : List UInt8}

/-- A gap separates a member or an item from the one before. -/
lemma separates_separator (blank : Blank gap) (first : Bool) :
    Separates first (separator gap first) := by
  cases first with
  | true => exact .first
  | false => exact .comma blank

mutual

/-- A value with gaps is spelled by the grammar. -/
lemma spells_bytes (blank : Blank gap) : (v : Tree) → Spells (.value v) (v.bytes gap)
  | .word _ => .word blank
  | .number _ => .number blank
  | .string _ => .string blank
  | .array vs => .array blank (spells_itemsBytes blank true vs)
  | .object ms => .object blank (spells_membersBytes blank true ms)

/-- The bytes of items spell them. -/
lemma spells_itemsBytes (blank : Blank gap) : (first : Bool) → (vs : List Tree) →
    Spells (.items first vs) (itemsBytes gap first vs)
  | _, [] => .endItems blank
  | first, v :: vs =>
    .item (separates_separator blank first) (spells_bytes blank v)
      (spells_itemsBytes blank false vs)

/-- The bytes of members spell them. -/
lemma spells_membersBytes (blank : Blank gap) : (first : Bool) → (ms : List (StringText × Tree)) →
    Spells (.members first ms) (membersBytes gap first ms)
  | _, [] => .endMembers blank
  | first, (_, v) :: ms =>
    .member (separates_separator blank first) blank blank (spells_bytes blank v)
      (spells_membersBytes blank false ms)

end

/-- The bytes of a tree spell it. -/
lemma spelled_bytes (blank : Blank gap) (v : Tree) : Spelled (v.bytes gap) v :=
  ⟨_, [], (List.append_nil _).symm, spells_bytes blank v, nofun⟩

end Gap

/-! ## Nesting -/

/-- A value nests fewer containers than this. -/
inductive Within : ℕ → Tree → Prop where
  | word {n w} :
    Within (n + 1) (.word w)
  | number {n t} :
    Within (n + 1) (.number t)
  | string {n t} :
    Within (n + 1) (.string t)
  | array {n vs} :
    (∀ v ∈ vs, Within n v) →
    Within (n + 1) (.array vs)
  | object {n ms} :
    (∀ m ∈ ms, Within n m.2) →
    Within (n + 1) (.object ms)

/-- Every container takes a byte. -/
lemma Spells.within {part : Part} {bytes : List UInt8} (spells : Spells part bytes) :
    ∀ n, bytes.length ≤ n → match part with
      | .value v => Within n v
      | .items _ vs => ∀ v ∈ vs, Within n v
      | .members _ ms => ∀ m ∈ ms, Within n m.2 := by
  induction spells with
  | word =>
    rintro (_ | n) short
    · simp at short
    · exact .word
  | @number t =>
    rintro (_ | n) short
    · obtain ⟨b, tail, eq, -⟩ := t.2.head
      simp [eq] at short
    · exact .number
  | string =>
    rintro (_ | n) short
    · simp [StringText.bytes] at short
    · exact .string
  -- a container takes a byte to open, and its parts one level less
  | array _ _ ih =>
    rintro (_ | n) short
    · simp at short
    · rw [List.length_append, List.length_cons] at short
      exact .array (ih n (by omega))
  | object _ _ ih =>
    rintro (_ | n) short
    · simp at short
    · rw [List.length_append, List.length_cons] at short
      exact .object (ih n (by omega))
  | endItems => exact fun n _ => nofun
  | item _ _ _ ihValue ihItems =>
    intro n short
    simp only [List.length_append] at short
    exact List.forall_mem_cons.mpr ⟨ihValue n (by omega), ihItems n (by omega)⟩
  | endMembers => exact fun n _ => nofun
  | member _ _ _ _ _ ihValue ihMembers =>
    intro n short
    simp only [List.length_append, List.length_cons] at short
    exact List.forall_mem_cons.mpr ⟨ihValue n (by omega), ihMembers n (by omega)⟩

end MetricRegistry.Json
