import MetricRegistry.Proofs.Json.Containers

/-!
# Texts that end early

What the printer writes is found to be cut short wherever it is cut. `Needs read bytes` says so of a
reader: it finds every beginning of the bytes truncated, and takes none of them for a value. A
numeral is the exception, as its digits cut short are digits; but then they are read to their end
(`Breaks`), and the container around them misses what should follow. `Needs.list` and
`Fills.needs` lift this through arrays and objects, along the loops that read them.
-/

namespace MetricRegistry.Json
open Ascii

variable {α σ : Type}

/-! ## Beginnings -/

/-- A text is another one cut short. -/
def Cut (p bytes : List UInt8) : Prop :=
  p <+: bytes ∧ p ≠ bytes

section Cuts

variable {b : UInt8} {p bytes s : List UInt8}

/-- Nothing can be cut from no bytes. -/
lemma not_cut_nil : ¬ Cut p [] := by
  rintro ⟨front, ne⟩
  exact ne (List.prefix_nil.mp front)

/-- A cut comes before the first byte or in the bytes after it. -/
lemma cut_cons : Cut p (b :: bytes) ↔ p = [] ∨ ∃ q, p = b :: q ∧ Cut q bytes := by
  rw [Cut, List.prefix_cons_iff]
  grind [Cut]

/-- A cut of one byte leaves nothing. -/
lemma cut_singleton : Cut p [b] ↔ p = [] := by
  simp [cut_cons, not_cut_nil]

/-- A cut falls into the first part of a text or after it. -/
lemma Cut.split (cut : Cut p (bytes ++ s)) : Cut p bytes ∨ ∃ q, p = bytes ++ q ∧ Cut q s := by
  induction bytes generalizing p with
  | nil => exact .inr ⟨p, rfl, cut⟩
  | cons b bytes ih =>
    obtain rfl | ⟨p, rfl, short⟩ := cut_cons.mp cut
    · exact .inl (cut_cons.mpr (.inl rfl))
    rcases ih short with inside | ⟨q, rfl, rest⟩
    · exact .inl (cut_cons.mpr (.inr ⟨p, rfl, inside⟩))
    · exact .inr ⟨q, rfl, rest⟩

/-- A numeral that ends before some bytes ends before every cut of them. -/
lemma EndsNumeral.cut (ends : EndsNumeral s) (cut : Cut p s) : EndsNumeral p := by
  cases s with
  | nil => exact absurd cut not_cut_nil
  | cons b s =>
    obtain rfl | ⟨q, rfl, -⟩ := cut_cons.mp cut
    · exact endsNumeral_nil
    · exact endsNumeral_cons q (ends b rfl)

end Cuts

/-- A reader finds every beginning of bytes cut short. -/
def Needs (read : Reader α) (bytes : List UInt8) : Prop :=
  ∀ p, Cut p bytes → read p = .error .truncated

/-- A reader finds every beginning of bytes cut short, or reads it to its end. -/
def Breaks (read : Reader α) (bytes : List UInt8) : Prop :=
  ∀ p, Cut p bytes → read p = .error .truncated ∨ ∃ x, read p = .ok (x, [])

/-- A reader that needs some bytes breaks where they are cut. -/
lemma Needs.breaks {read : Reader α} {bytes : List UInt8} (needs : Needs read bytes) :
    Breaks read bytes :=
  fun p cut => .inl (needs p cut)

/-! ## Scalars -/

/-- A character of a string is needed to its last byte. -/
lemma needs_quotedChar (c : Char) : Needs stringBytes (quotedChar c) := by
  intro p cut
  unfold quotedChar at cut
  split at cut
  case h_8 notQuote notBackslash _ _ _ _ _ =>
    split at cut
    case isTrue control =>
      -- the six bytes of an escape, cut after each
      simp only [cut_cons, not_cut_nil, and_false, exists_false, or_false] at cut
      obtain rfl | ⟨_, rfl, rfl | ⟨_, rfl, rfl | ⟨_, rfl, rfl | ⟨_, rfl, rfl | ⟨_, rfl, rfl⟩⟩⟩⟩⟩ :=
        cut <;> rfl
    case isFalse notControl =>
      have plain := isPlain_of_mem_utf8EncodeChar notQuote notBackslash notControl
      have read := stringBytes_plains [] fun b mem => plain b (cut.1.subset mem)
      rw [List.append_nil] at read
      rw [read]
      rfl
  all_goals
    simp only [cut_cons, not_cut_nil, and_false, exists_false, or_false] at cut
    rcases cut with rfl | ⟨_, rfl, rfl⟩ <;> rfl

/-- A string is cut short by every cut before its closing quote, even inside a character. -/
lemma needs_stringBytes (cs : List Char) :
    Needs stringBytes (cs.flatMap quotedChar ++ [quote]) := by
  induction cs with
  | nil =>
    intro p cut
    obtain rfl := cut_singleton.mp cut
    rfl
  | cons c cs ih =>
    intro p cut
    rw [List.flatMap_cons, List.append_assoc] at cut
    rcases cut.split with inside | ⟨q, rfl, rest⟩
    · exact needs_quotedChar c p inside
    · rw [stringBytes_quotedChar, ih q rest]
      rfl

/-- A string is needed to its closing quote. -/
lemma needs_string (t : String) : Needs string (t.toList.flatMap quotedChar ++ [quote]) := by
  intro p cut
  rw [string, needs_stringBytes t.toList p cut]
  rfl

/-- A text is needed to its closing quote. -/
lemma needs_text (t : String) : Needs text (Value.string t).compact := by
  intro p cut
  rw [Value.compact, quoted, List.cons_append] at cut
  obtain rfl | ⟨p, rfl, short⟩ := cut_cons.mp cut
  · rfl
  · rw [text, skipSpace_cons _ (by decide)]
    exact needs_string t p short

/-- The digits of a natural number cut short are the digits of another one. -/
lemma natBytes_cut {n : ℕ} {p : List UInt8} (cut : Cut p (natBytes n)) :
    p = [] ∨ ∃ m ≤ n, p = natBytes m := by
  induction n using Nat.strongRecOn generalizing p with
  | ind n ih =>
    by_cases small : n < 10
    · rw [natBytes_of_lt small, cut_singleton] at cut
      exact .inl cut
    · have lastDigit : n % 10 < 10 := Nat.mod_lt n (by decide)
      rw [natBytes_of_le (Nat.le_of_not_lt small), natBytes_of_lt lastDigit] at cut
      rcases cut.split with inside | ⟨q, rfl, short⟩
      · refine (ih (n / 10) (by omega) inside).imp_right ?_
        rintro ⟨m, le, rfl⟩
        exact ⟨m, by omega, rfl⟩
      · obtain rfl := cut_singleton.mp short
        exact .inr ⟨n / 10, by omega, List.append_nil _⟩

/-- A numeral that is cut is truncated or a shorter one. -/
lemma breaks_uint32 (n : UInt32) : Breaks uint32 (Value.nat n.toNat).compact := by
  intro p cut
  rw [compact_nat] at cut
  rcases natBytes_cut cut with rfl | ⟨m, le, rfl⟩
  · exact .inl rfl
  · have small : m < UInt32.size := Nat.lt_of_le_of_lt le n.toNat_lt
    have read := uint32_natBytes (UInt32.ofNat m) endsNumeral_nil
    rw [List.append_nil, UInt32.toNat_ofNat_of_lt' small] at read
    exact .inr ⟨_, read⟩

/-! ## Arrays -/

/-- A cut of bytes that open a value leaves nothing or opens it too. -/
lemma Opens.cut {bytes p s : List UInt8} (opens : Opens bytes) (cut : Cut p (bytes ++ s)) :
    p = [] ∨ Opens p := by
  obtain ⟨b, rest, rfl, ink⟩ := opens
  exact (cut_cons.mp cut).imp_right fun ⟨q, eq, _⟩ => ⟨b, q, eq, ink⟩

/-- The items of an array do not end with the input. -/
lemma elements_nil (item : Reader α) (rounds : ℕ) (first : Bool) :
    elements item (rounds + 1) first [] = .error .truncated :=
  rfl

/-- An array that is cut short in an item, or behind it, is found to be. -/
lemma elements_cut {item : Reader α} {bytes p s t : List UInt8} {x : α} {rounds : ℕ} {first : Bool}
    (start : nextElement first s = .ok (some p)) (cut : Cut p (bytes ++ t))
    (reads : Reads item bytes x) (breaks : Breaks item bytes) (ends : EndsNumeral t)
    (more : ∀ q, Cut q t → p = bytes ++ q →
      elements item (rounds + 1) false q = .error .truncated) :
    elements item (rounds + 2) first s = .error .truncated := by
  rw [elements, start]
  rcases cut.split with inside | ⟨q, rfl, rest⟩
  · rcases breaks p inside with early | ⟨y, read⟩
    · simp [bind, Except.bind, early]
    · simp [bind, Except.bind, read, elements_nil]
  · simp [bind, Except.bind, reads q (ends.cut rest), more q rest rfl]

/-- An item that is read back, opens no other than itself, and is found to be cut short. -/
structure Written (item : Reader α) (bytes : List UInt8) (x : α) : Prop where
  reads : Reads item bytes x
  breaks : Breaks item bytes
  opens : Opens bytes

section Items

variable {item : Reader α} {write : α → List UInt8} {xs : List α}

/-- The items of an array are needed to its closing bracket. -/
lemma needs_items (written : ∀ x ∈ xs, Written item (write x) x) {p : List UInt8}
    (cut : Cut p (xs.flatMap (comma :: write ·) ++ [closeBracket])) {rounds : ℕ}
    (enough : p.length ≤ rounds) : elements item (rounds + 1) false p = .error .truncated := by
  induction xs generalizing p rounds with
  | nil =>
    obtain rfl := cut_singleton.mp cut
    exact elements_nil item rounds false
  | cons x xs ih =>
    obtain ⟨first, others⟩ := List.forall_mem_cons.mp written
    rw [List.flatMap_cons, List.append_assoc, List.cons_append] at cut
    obtain rfl | ⟨p, rfl, behind⟩ := cut_cons.mp cut
    · exact elements_nil item rounds false
    obtain rfl | opened := first.opens.cut behind
    · rfl
    rw [List.length_cons] at enough
    obtain ⟨rounds, rfl⟩ : ∃ n, rounds = n + 1 := ⟨rounds - 1, by omega⟩
    have start : nextElement false (comma :: p) = .ok (some p) := by
      simpa using nextElement_comma opened []
    refine elements_cut start behind first.reads first.breaks (endsNumeral_items write xs []) ?_
    rintro q short rfl
    rw [List.length_append] at enough
    exact ih others short (by omega)

/-- A list is needed to its closing bracket. -/
lemma Needs.list (written : ∀ x ∈ xs, Written item (write x) x) :
    Needs (Json.list item) (openBracket :: separated [comma] (xs.map write) ++ [closeBracket]) := by
  intro p cut
  rw [List.cons_append] at cut
  obtain rfl | ⟨p, rfl, inside⟩ := cut_cons.mp cut
  · rfl
  rw [Json.list, skipSpace_cons _ (by decide)]
  show elements item (p.length + 1) true p = .error .truncated
  cases xs with
  | nil =>
    obtain rfl := cut_singleton.mp inside
    rfl
  | cons x xs =>
    obtain ⟨first, others⟩ := List.forall_mem_cons.mp written
    rw [List.map_cons, separated_cons, List.append_assoc, List.flatMap_map] at inside
    obtain rfl | opened := first.opens.cut inside
    · rfl
    have start : nextElement true p = .ok (some p) := by
      simpa using nextElement_first opened []
    obtain ⟨n, length⟩ : ∃ n, p.length = n + 1 := by
      obtain ⟨b, rest, rfl, -⟩ := opened
      exact ⟨rest.length, rfl⟩
    rw [length]
    refine elements_cut start inside first.reads first.breaks (endsNumeral_items write xs []) ?_
    rintro q short rfl
    obtain ⟨b, rest, eq, -⟩ := first.opens
    rw [eq, List.length_append, List.length_cons] at length
    exact needs_items others short (by omega)

end Items

/-! ## Objects -/

/-- A member whose value is found to be cut short by whatever reader is chosen for it. -/
def Fragile (member : σ → String → Except Fault (Reader σ)) (m : String × List UInt8) : Prop :=
  ∀ state read, member state m.1 = .ok read → Breaks read m.2

/-- The members of an object do not end with the input. -/
lemma members_nil {ν : Type} (name : Reader ν) (member : σ → ν → Except Fault (Reader σ))
    (rounds : ℕ) (first : Bool) (state : σ) :
    members name member (rounds + 1) first state [] = .error .truncated :=
  rfl

/-- A member is written as its name between quotes, a colon and its value. -/
lemma memberBytes_append (name : String) (bytes s : List UInt8) :
    memberBytes (name, bytes) ++ s
      = quote :: (name.toList.flatMap quotedChar ++ [quote] ++ colon :: (bytes ++ s)) := by
  simp [memberBytes, quoted]

section Members

variable {member : σ → String → Except Fault (Reader σ)} {state next last : σ}

/-- An object that is cut short in a member, or behind it, is found to be. -/
lemma members_cut {name : String} {bytes p s t : List UInt8} {read : Reader σ} {rounds : ℕ}
    {first : Bool} (start : nextName first s = .ok (some p))
    (cut : Cut p ((name.toList.flatMap quotedChar ++ [quote]) ++ colon :: (bytes ++ t)))
    (known : member state name = .ok read) (reads : Reads read bytes next)
    (breaks : Breaks read bytes) (ends : EndsNumeral t)
    (more : ∀ q, Cut q t → q.length < p.length →
      members string member (rounds + 1) false next q = .error .truncated) :
    members string member (rounds + 2) first state s = .error .truncated := by
  rw [members, start]
  rcases cut.split with inside | ⟨q, rfl, rest⟩
  · simp [bind, Except.bind, needs_string name p inside]
  have named : string (name.toList.flatMap quotedChar ++ [quote] ++ q) = .ok (name, q) := by
    rw [List.append_assoc]
    exact string_quoted name q
  simp only [bind, Except.bind, named, known]
  obtain rfl | ⟨q, rfl, value⟩ := cut_cons.mp rest
  · rfl
  have toColon : nameEnd (colon :: q) = .ok q := by
    simp [nameEnd, skipSpace_cons (b := colon) q (by decide)]
  simp only [toColon]
  rcases value.split with inside | ⟨r, rfl, short⟩
  · rcases breaks q inside with early | ⟨y, whole⟩
    · simp [early]
    · simp [whole, members_nil]
  · simp only [reads r (ends.cut short)]
    refine more r short ?_
    simp only [List.length_append, List.length_cons]
    omega

/-- The members of an object are needed to its closing brace. -/
lemma Takes.needs_rest {ms : List (String × List UInt8)} (takes : Takes member state ms last)
    (fragile : ∀ m ∈ ms, Fragile member m) {p : List UInt8}
    (cut : Cut p (ms.flatMap (comma :: memberBytes ·) ++ [closeBrace])) {rounds : ℕ}
    (enough : p.length ≤ rounds) :
    Json.members string member (rounds + 1) false state p = .error .truncated := by
  induction takes generalizing p rounds with
  | nil =>
    obtain rfl := cut_singleton.mp cut
    exact members_nil string member rounds false _
  | @cons state next last name bytes read ms known reads takes ih =>
    obtain ⟨breaks, others⟩ := List.forall_mem_cons.mp fragile
    rw [List.flatMap_cons, List.append_assoc, List.cons_append] at cut
    obtain rfl | ⟨p, rfl, behind⟩ := cut_cons.mp cut
    · exact members_nil string member rounds false _
    rw [memberBytes_append] at behind
    obtain rfl | ⟨p, rfl, inside⟩ := cut_cons.mp behind
    · rfl
    simp only [List.length_cons] at enough
    obtain ⟨rounds, rfl⟩ : ∃ n, rounds = n + 1 := ⟨rounds - 1, by omega⟩
    refine members_cut (nextName_comma p) inside known reads (breaks _ _ known)
      (endsNumeral_members ms []) ?_
    intro q short less
    exact ih others short (by omega)

end Members

/-- An object that is read as a record is found to be cut short. -/
lemma Fills.needs {slots : List (Slot σ)} {blank last : σ} {ms : List (String × List UInt8)}
    (fills : Fills slots blank ms last) (fragile : ∀ m ∈ ms, Fragile (slotNamed slots) m)
    (finish : σ → Option α) :
    Needs (Json.record slots blank finish) (objectBytes ms) := by
  intro p cut
  rw [objectBytes, List.cons_append] at cut
  obtain rfl | ⟨p, rfl, inside⟩ := cut_cons.mp cut
  · rfl
  have early : members string (slotNamed slots) (p.length + 1) true blank p
      = .error .truncated := by
    cases fills with
    | nil =>
      obtain rfl := cut_singleton.mp inside
      rfl
    | @cons _ next _ name bytes read ms known reads fills =>
      obtain ⟨breaks, others⟩ := List.forall_mem_cons.mp fragile
      rw [List.map_cons, separated_cons, List.append_assoc, List.flatMap_map,
        memberBytes_append] at inside
      obtain rfl | ⟨p, rfl, behind⟩ := cut_cons.mp inside
      · rfl
      refine members_cut (nextName_first p) behind known reads (breaks _ _ known)
        (endsNumeral_members ms []) ?_
      intro q short less
      exact fills.takes.needs_rest others short (by omega)
  rw [Json.record, skipSpace_cons _ (by decide)]
  simp [bind, Except.bind, early]

/-- A member whose place is kept for it, and whose value is found to be cut short. -/
lemma fragile_slot {β : Type} {slots : List (Slot σ)} {name : String} {get : σ → Option β}
    {set : σ → β → σ} {read : Reader β} {bytes : List UInt8}
    (place : slots.find? (·.name == name) = some (.of name get set read))
    (breaks : Breaks read bytes) : Fragile (slotNamed slots) (name, bytes) := by
  intro state fill known
  simp only [slotNamed, place] at known
  split at known
  · cases known
  · cases known
    intro p cut
    rcases breaks p cut with early | ⟨x, whole⟩
    · left
      simp [Slot.of, early, bind, Except.bind]
    · right
      exact ⟨_, by simp [Slot.of, whole, bind, Except.bind, pure, Except.pure]; rfl⟩

/-- A text that is cut is truncated for a reader that needs all of it. -/
lemma Needs.whole {read : Reader α} {bytes p : List UInt8} (needs : Needs read bytes)
    (cut : Cut p bytes) : Json.whole read p = .error .truncated := by
  rw [Json.whole, needs p cut]
  rfl

end MetricRegistry.Json
