import MetricRegistry.Json.Record
import MetricRegistry.Proofs.Json.Scalars

/-!
# Containers are read back

`Reads read bytes x` says that a reader takes `bytes` off the front of a text and gives `x`, unless
what follows goes on with a numeral. The relation goes through the containers: `Reads.list` reads
the array of what its items were written as, and `Fills.record` the object whose members `Fills`
one draft after the other; the loop over members is the same for readers of any other state that the
members `Takes` from one to the next. The rounds that the loops are given suffice because every item
and every member takes a byte.
-/

namespace MetricRegistry.Json
open Ascii

variable {α σ : Type}

/-- A reader takes bytes off the front of a text and gives a result, whatever follows that does not
go on with a numeral. -/
def Reads (read : Reader α) (bytes : List UInt8) (x : α) : Prop :=
  ∀ s, EndsNumeral s → read (bytes ++ s) = .ok (x, s)

/-- Bytes that start with no blank and close no array. -/
def Opens (bytes : List UInt8) : Prop :=
  ∃ b rest, bytes = b :: rest ∧ isSpace b = false ∧ b ≠ closeBracket

/-- A byte that is no part of a numeral ends it. -/
lemma endsNumeral_cons {b : UInt8} (s : List UInt8)
    (foreign : isDigit b = false ∧ b ≠ dot ∧ b ≠ lowerE ∧ b ≠ upperE) : EndsNumeral (b :: s) := by
  intro b' mem
  obtain rfl : b = b' := by simpa using mem
  exact foreign

/-- There is nothing to skip in front of ink. -/
lemma skipSpace_cons {b : UInt8} (s : List UInt8) (ink : isSpace b = false) :
    skipSpace (b :: s) = b :: s := by
  simp [skipSpace, ink]

/-- Parts after the first stand behind a separator each. -/
lemma separated_cons (sep t : List UInt8) (ts : List (List UInt8)) :
    separated sep (t :: ts) = t ++ ts.flatMap (sep ++ ·) := by
  induction ts generalizing t with
  | nil => simp [separated]
  | cons u ts ih => simp [separated, ih]

/-- Parts that are not empty are no more than their bytes. -/
lemma length_le_length_separated (sep : List UInt8) {parts : List (List UInt8)}
    (inked : ∀ t ∈ parts, t ≠ []) : parts.length ≤ (separated sep parts).length := by
  induction parts with
  | nil => exact Nat.zero_le _
  | cons t ts ih =>
    have pos := List.length_pos_iff.mpr (inked t (by simp))
    have rest := ih fun u mem => inked u (by simp [mem])
    cases ts with
    | nil =>
      simp only [separated, List.length_cons, List.length_nil]
      omega
    | cons u ts =>
      simp only [separated, List.length_append, List.length_cons] at rest ⊢
      omega

/-! ## Arrays -/

/-- The first item of an array stands right after its bracket. -/
lemma nextElement_first {bytes : List UInt8} (opens : Opens bytes) (s : List UInt8) :
    nextElement true (bytes ++ s) = .ok (some (bytes ++ s)) := by
  obtain ⟨b, rest, rfl, ink, ne⟩ := opens
  rw [List.cons_append, nextElement, skipSpace_cons _ ink]
  simp [ne]

/-- Every other item of an array stands after a comma. -/
lemma nextElement_comma {bytes : List UInt8} (opens : Opens bytes) (s : List UInt8) :
    nextElement false (comma :: (bytes ++ s)) = .ok (some (bytes ++ s)) := by
  obtain ⟨b, rest, rfl, ink, ne⟩ := opens
  have goesOn : comma ≠ closeBracket := by decide
  rw [List.cons_append, nextElement, skipSpace_cons _ (by decide)]
  simp [goesOn, skipSpace_cons _ ink, ne]

/-- A bracket ends the items of an array. -/
lemma elements_close (item : Reader α) (rounds : Nat) (first : Bool) (s : List UInt8) :
    elements item (rounds + 1) first (closeBracket :: s) = .ok ([], s) := by
  have stop : skipSpace (closeBracket :: s) = closeBracket :: s := skipSpace_cons s (by decide)
  simp [elements, nextElement, closeArray, stop, bind, Except.bind, pure, Except.pure]

/-- An item is read, and then those after it. -/
lemma elements_step {item : Reader α} {bytes s t rest : List UInt8} {x : α} {xs : List α}
    {rounds : Nat} {first : Bool} (start : nextElement first s = .ok (some (bytes ++ t)))
    (reads : Reads item bytes x) (ends : EndsNumeral t)
    (more : elements item rounds false t = .ok (xs, rest)) :
    elements item (rounds + 1) first s = .ok (x :: xs, rest) := by
  rw [elements, start]
  simp [bind, Except.bind, reads t ends, more, pure, Except.pure]

/-- A numeral ends where the items after it go on or the array is closed. -/
lemma endsNumeral_items (write : α → List UInt8) (xs : List α) (s : List UInt8) :
    EndsNumeral (xs.flatMap (comma :: write ·) ++ closeBracket :: s) := by
  cases xs <;> exact endsNumeral_cons _ (by decide)

/-- Items behind commas are read up to the closing bracket. -/
lemma elements_rest {item : Reader α} {write : α → List UInt8} {xs : List α}
    (reads : ∀ x ∈ xs, Reads item (write x) x) (opens : ∀ x ∈ xs, Opens (write x))
    {rounds : Nat} (enough : xs.length < rounds) (s : List UInt8) :
    elements item rounds false (xs.flatMap (comma :: write ·) ++ closeBracket :: s)
      = .ok (xs, s) := by
  induction xs generalizing rounds with
  | nil =>
    obtain ⟨rounds, rfl⟩ : ∃ n, rounds = n + 1 := ⟨rounds - 1, by simp at enough; omega⟩
    exact elements_close item rounds false s
  | cons x xs ih =>
    obtain ⟨rounds, rfl⟩ : ∃ n, rounds = n + 1 := ⟨rounds - 1, by omega⟩
    have fewer : xs.length < rounds := by simpa using enough
    have rest := ih (fun y mem => reads y (by simp [mem])) (fun y mem => opens y (by simp [mem]))
      fewer
    refine elements_step ?_ (reads x (by simp)) (endsNumeral_items write xs s) rest
    simpa using nextElement_comma (opens x (by simp)) _

/-- A list is read from the items that are written. -/
lemma Reads.list {item : Reader α} {write : α → List UInt8} {xs : List α}
    (reads : ∀ x ∈ xs, Reads item (write x) x) (opens : ∀ x ∈ xs, Opens (write x)) :
    Reads (Json.list item) (openBracket :: separated [comma] (xs.map write) ++ [closeBracket])
      xs := by
  intro s _
  have inked : ∀ t ∈ xs.map write, t ≠ [] := by
    intro t mem
    obtain ⟨x, xmem, rfl⟩ := List.mem_map.mp mem
    obtain ⟨b, w, eq, -⟩ := opens x xmem
    simp [eq]
  have bound := length_le_length_separated [comma] inked
  -- the loop has a round for every byte that is left, and so one for every item
  generalize body : separated [comma] (xs.map write) ++ closeBracket :: s = t
  have enough : xs.length < t.length := by
    simp only [← body, List.length_append, List.length_cons, List.length_map] at bound ⊢
    omega
  have read : elements item (t.length + 1) true t = .ok (xs, s) := by
    cases xs with
    | nil => exact body ▸ elements_close item _ true s
    | cons x xs =>
      -- the first item stands behind no comma, the others do
      refine elements_step ?_ (reads x (by simp)) (endsNumeral_items write xs s)
        (elements_rest (fun y mem => reads y (by simp [mem]))
          (fun y mem => opens y (by simp [mem])) (by simp at enough; omega) s)
      rw [← body, List.map_cons, separated_cons, List.append_assoc, List.flatMap_map]
      exact nextElement_first (opens x (by simp)) _
  have whole : openBracket :: separated [comma] (xs.map write) ++ [closeBracket] ++ s
      = openBracket :: t := by
    simp [← body]
  rw [whole, Json.list, skipSpace_cons _ (by decide)]
  simpa using read

/-! ## Objects -/

/-- How a member of an object is written. -/
def memberBytes (m : String × List UInt8) : List UInt8 :=
  quoted m.1 ++ colon :: m.2

/-- An object, given how its members are written. -/
def objectBytes (ms : List (String × List UInt8)) : List UInt8 :=
  openBrace :: separated [comma] (ms.map memberBytes) ++ [closeBrace]

/-- The members of an object take a state to another, each by the reader that is chosen for it. -/
inductive Takes (member : σ → String → Except Fault (Reader σ)) :
    σ → List (String × List UInt8) → σ → Prop where
  | nil {state} :
    Takes member state [] state
  | cons {state next last name bytes read ms} :
    member state name = .ok read →
    Reads read bytes next →
    Takes member next ms last →
    Takes member state ((name, bytes) :: ms) last

/-- The first name of an object stands right after its brace. -/
lemma nextName_first (s : List UInt8) : nextName true (quote :: s) = .ok (some s) := by
  have goesOn : quote ≠ closeBrace := by decide
  rw [nextName, skipSpace_cons _ (by decide)]
  simp [goesOn]

/-- Every other name of an object stands after a comma. -/
lemma nextName_comma (s : List UInt8) : nextName false (comma :: quote :: s) = .ok (some s) := by
  have goesOn : comma ≠ closeBrace := by decide
  rw [nextName, skipSpace_cons _ (by decide)]
  simp [goesOn, skipSpace_cons s (b := quote) (by decide)]

/-- A brace ends the members of an object. -/
lemma members_close {ν : Type} (name : Reader ν) (member : σ → ν → Except Fault (Reader σ))
    (rounds : Nat) (first : Bool) (state : σ) (s : List UInt8) :
    members name member (rounds + 1) first state (closeBrace :: s) = .ok (state, s) := by
  have stop : skipSpace (closeBrace :: s) = closeBrace :: s := skipSpace_cons s (by decide)
  simp [members, nextName, closeObject, stop, bind, Except.bind, pure, Except.pure]

section Members

variable {member : σ → String → Except Fault (Reader σ)} {state next last : σ}

/-- A member is read, and then those after it. -/
lemma members_step {name : String} {bytes s t rest : List UInt8} {read : Reader σ} {rounds : Nat}
    {first : Bool}
    (start : nextName first s = .ok (some (name.toList.flatMap quotedChar ++ quote :: colon ::
      (bytes ++ t))))
    (known : member state name = .ok read) (reads : Reads read bytes next)
    (ends : EndsNumeral t) (more : members string member rounds false next t = .ok (last, rest)) :
    members string member (rounds + 1) first state s = .ok (last, rest) := by
  have toColon : nameEnd (colon :: (bytes ++ t)) = .ok (bytes ++ t) := by
    simp [nameEnd, skipSpace_cons (b := colon) (bytes ++ t) (by decide)]
  rw [members, start]
  simp [bind, Except.bind, string_quoted, known, toColon, reads t ends, more]

/-- A numeral ends where the members after it go on or the object is closed. -/
lemma endsNumeral_members (ms : List (String × List UInt8)) (s : List UInt8) :
    EndsNumeral (ms.flatMap (comma :: memberBytes ·) ++ closeBrace :: s) := by
  cases ms <;> exact endsNumeral_cons _ (by decide)

/-- Members behind commas are read up to the closing brace. -/
lemma Takes.rest {ms : List (String × List UInt8)} (takes : Takes member state ms last)
    {rounds : Nat} (enough : ms.length < rounds) (s : List UInt8) :
    members string member rounds false state
      (ms.flatMap (comma :: memberBytes ·) ++ closeBrace :: s) = .ok (last, s) := by
  induction takes generalizing rounds with
  | nil =>
    obtain ⟨rounds, rfl⟩ : ∃ n, rounds = n + 1 := ⟨rounds - 1, by simp at enough; omega⟩
    exact members_close string _ rounds false _ s
  | @cons state next last name bytes read ms known reads takes ih =>
    obtain ⟨rounds, rfl⟩ : ∃ n, rounds = n + 1 := ⟨rounds - 1, by omega⟩
    refine members_step ?_ known reads (endsNumeral_members ms s) (ih (by simpa using enough))
    simpa [memberBytes, quoted] using nextName_comma _

/-- The members of an object are read up to the closing brace, with a round for every byte. -/
lemma Takes.members {ms : List (String × List UInt8)} (takes : Takes member state ms last)
    (s : List UInt8) {t : List UInt8}
    (body : separated [comma] (ms.map memberBytes) ++ closeBrace :: s = t) :
    members string member (t.length + 1) true state t = .ok (last, s) := by
  have inked : ∀ t ∈ ms.map memberBytes, t ≠ [] := by
    intro t mem
    obtain ⟨m, -, rfl⟩ := List.mem_map.mp mem
    simp [memberBytes, quoted]
  have bound := length_le_length_separated [comma] inked
  have enough : ms.length < t.length := by
    simp only [← body, List.length_append, List.length_cons, List.length_map] at bound ⊢
    omega
  cases takes with
  | nil => exact body ▸ members_close string _ _ true _ s
  | @cons _ next _ name bytes read ms known reads takes =>
    refine members_step ?_ known reads (endsNumeral_members ms s)
      (takes.rest (by simp at enough; omega) s)
    rw [← body, List.map_cons, separated_cons, List.append_assoc, List.flatMap_map]
    simpa [memberBytes, quoted] using nextName_first _

end Members

/-! ## Records -/

/-- The members of an object take a draft to another. -/
inductive Fills (slots : List (Slot σ)) : σ → List (String × List UInt8) → σ → Prop where
  | nil {draft} :
    Fills slots draft [] draft
  | cons {draft next last name bytes read ms} :
    slotNamed slots draft name = .ok read →
    Reads read bytes next →
    Fills slots next ms last →
    Fills slots draft ((name, bytes) :: ms) last

/-- Members that fill a draft are taken one by one. -/
lemma Fills.takes {slots : List (Slot σ)} {draft last : σ} {ms : List (String × List UInt8)}
    (fills : Fills slots draft ms last) : Takes (slotNamed slots) draft ms last := by
  induction fills with
  | nil => exact .nil
  | cons known reads _ ih => exact .cons known reads ih

/-- An object is read as the record that its members fill, whatever follows it. -/
lemma Fills.record {slots : List (Slot σ)} {blank last : σ} {x : α}
    {ms : List (String × List UInt8)} (fills : Fills slots blank ms last)
    (finish : σ → Option α) (finished : finish last = some x) (s : List UInt8) :
    Json.record slots blank finish (objectBytes ms ++ s) = .ok (x, s) := by
  generalize body : separated [comma] (ms.map memberBytes) ++ closeBrace :: s = t
  have read := fills.takes.members s body
  have whole : objectBytes ms ++ s = openBrace :: t := by
    simp [objectBytes, ← body]
  rw [whole, Json.record, skipSpace_cons _ (by decide)]
  simp [read, bind, Except.bind, finished, pure, Except.pure]

/-- The place of a member in a draft is filled by what is read for it. -/
lemma Reads.fill {β : Type} {name : String} {get : σ → Option β} {set : σ → β → σ}
    {read : Reader β} {bytes : List UInt8} {x : β} (reads : Reads read bytes x) (draft : σ) :
    Reads ((Slot.of name get set read).fill draft) bytes (set draft x) := by
  intro s ends
  simp [Slot.of, reads s ends, bind, Except.bind, pure, Except.pure]

/-- A text that a reader takes as a whole is one value. -/
lemma Reads.whole {read : Reader α} {bytes : List UInt8} {x : α} (reads : Reads read bytes x) :
    Json.whole read bytes = .ok x := by
  have all := reads [] (by simp [EndsNumeral])
  rw [List.append_nil] at all
  simp [Json.whole, all, bind, Except.bind, skipSpace, pure, Except.pure]

/-! ## Written values -/

/-- The members of an object are written one by one. -/
lemma compactMembers_eq (ms : List (String × Value)) :
    compactMembers ms = (ms.map fun m => (m.1, m.2.compact)).map memberBytes := by
  induction ms with
  | nil => rfl
  | cons m ms ih => simp [compactMembers, ih, memberBytes]

/-- An object is written as its members are. -/
lemma compact_object (ms : List (String × Value)) :
    (Value.object ms).compact = objectBytes (ms.map fun m => (m.1, m.2.compact)) := by
  rw [Value.compact, compactMembers_eq, objectBytes]

/-- The items of an array are written one by one. -/
lemma compactItems_map (f : α → Value) (xs : List α) :
    compactItems (xs.map f) = xs.map fun x => (f x).compact := by
  induction xs with
  | nil => rfl
  | cons x xs ih => simp [compactItems, ih]

/-- A natural number is written in its digits. -/
lemma compact_nat (n : Nat) : (Value.nat n).compact = natBytes n := by
  simp [Value.nat, Value.int, Value.compact, Number.compact, intBytes]

/-- An integer of 32 bits is read from what is written for it. -/
lemma reads_uint32 (n : UInt32) : Reads uint32 (Value.nat n.toNat).compact n := by
  intro s ends
  rw [compact_nat, uint32_natBytes n ends]

/-- A text is read from what is written for it. -/
lemma reads_text (t : String) : Reads text (Value.string t).compact t := by
  intro s _
  have start (u : List UInt8) : skipSpace (quote :: u) = quote :: u := skipSpace_cons u (by decide)
  simp [Value.compact, quoted, text, start, string_quoted]

/-- A list of texts is read from what is written for it. -/
lemma reads_texts (ts : List String) : Reads (list text) (Value.texts ts).compact ts := by
  rw [Value.texts, Value.compact, compactItems_map]
  refine Reads.list (fun t _ => reads_text t) fun t _ => ?_
  exact ⟨quote, _, rfl, by decide, by decide⟩

end MetricRegistry.Json
