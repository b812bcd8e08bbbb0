import Mathlib.Data.List.Forall2
import MetricRegistry.Json.Record
import MetricRegistry.Proofs.Json.Tokens
import MetricRegistry.Proofs.Outcome

/-!
# Readers and trees

What a reader gives for a text depends on the tree that the text spells, and not on its blanks or on
what follows. `Follows read meaning` says so: the reader accepts a spelling of a tree if and only if
the tree has a meaning, and gives that. There is such a meaning for each kind of reader: for arrays
the meanings of their items, for objects what their members gather one after the other
(`Gathers`).
-/

namespace MetricRegistry.Json
open Ascii

variable {α σ ν : Type}

/-- A reader takes a tree for a value, however it is spelled. -/
def Means (read : Reader α) (v : Tree) (x : α) : Prop :=
  ∀ bytes, Spells (.value v) bytes → Reads read bytes x

/-- However a tree is spelled, a reader gives its meaning, and nothing if it has none. -/
def FollowsAt (read : Reader α) (v : Tree) (meaning : α → Prop) : Prop :=
  ∀ bytes rest, Spells (.value v) bytes → EndsNumeral rest →
    ∀ x r, read (bytes ++ rest) = .ok (x, r) ↔ r = rest ∧ meaning x

/-- A reader gives the meaning of whatever tree is spelled. -/
def Follows (read : Reader α) (meaning : Tree → α → Prop) : Prop :=
  ∀ v, FollowsAt read v (meaning v)

/-- What a reader gives depends on the tree that is spelled. -/
def Uniform (read : Reader α) : Prop :=
  ∀ v, FollowsAt read v (Means read v)

section Meanings

variable {read : Reader α} {v : Tree}

/-- The meaning of a tree is what it is taken for. -/
lemma FollowsAt.means {meaning : α → Prop} (follows : FollowsAt read v meaning) (x : α) :
    Means read v x ↔ meaning x := by
  constructor
  · intro means
    have spells := spells_bytes blank_nil v
    exact ((follows _ [] spells endsNumeral_nil x []).mp (means _ spells [] endsNumeral_nil)).2
  · intro holds bytes spells rest ends
    exact (follows bytes rest spells ends x rest).mpr ⟨rfl, holds⟩

/-- What a tree means to a reader is what the reader makes of it, if the reader has a meaning. -/
lemma FollowsAt.canonical {meaning : α → Prop} (follows : FollowsAt read v meaning) :
    FollowsAt read v (Means read v) := by
  intro bytes rest spells ends x r
  rw [follows bytes rest spells ends x r, follows.means]

/-- A reader that follows a meaning makes the same of every spelling of a tree. -/
lemma Follows.uniform {meaning : Tree → α → Prop} (follows : Follows read meaning) :
    Uniform read :=
  fun v => (follows v).canonical

/-- A reader whose result depends on the tree alone. -/
lemma followsAt_of_result (result : Except Fault α) (eq : ∀ bytes rest, Spells (.value v) bytes →
    EndsNumeral rest → read (bytes ++ rest) = result.map (·, rest)) :
    FollowsAt read v fun x => result = .ok x := by
  intro bytes rest spells ends x r
  rw [eq bytes rest spells ends]
  cases result <;> simp [Except.map, and_comm, eq_comm]

/-- A reader that refuses a tree, for whatever fault. -/
lemma followsAt_of_error (refused : ∀ bytes rest, Spells (.value v) bytes →
    EndsNumeral rest → ∃ e, read (bytes ++ rest) = .error e) : FollowsAt read v fun _ => False := by
  intro bytes rest spells ends x r
  obtain ⟨e, eq⟩ := refused bytes rest spells ends
  simp [eq]

end Meanings

/-! ## Scalars -/

/-- Blanks in front of a value are skipped. -/
lemma skipSpace_value {blanks : List UInt8} (blank : Blank blanks) (v : Tree) (s : List UInt8) :
    skipSpace (blanks ++ v.head :: s) = v.head :: s :=
  skipSpace_ink blank v.head_ink s

/-- A text is read as a whole as the tree that it spells is taken for. -/
lemma Uniform.whole_iff {read : Reader α} (uniform : Uniform read) {text : List UInt8} {v : Tree}
    (spelled : Spelled text v) (x : α) : whole read text = .ok x ↔ Means read v x := by
  obtain ⟨bytes, blanks, rfl, spells, blank⟩ := spelled
  have ends : EndsNumeral blanks := by simpa using blank.endsNumeral endsNumeral_nil
  have read := uniform v bytes blanks spells ends
  have stop : skipSpace blanks = [] := by
    rw [← List.append_nil blanks, skipSpace_blanks blank]
    rfl
  simp only [whole, Except.bind_eq_ok, Prod.exists]
  constructor
  · rintro ⟨x, r, accepted, ended⟩
    obtain ⟨rfl, means⟩ := (read x r).mp accepted
    rw [stop] at ended
    cases ended
    exact means
  · intro means
    exact ⟨x, blanks, (read x blanks).mpr ⟨rfl, means⟩, by rw [stop]; rfl⟩

/-- A name is read as what its string names. -/
lemma UniformName.read_iff {name : Reader ν} (uniform : UniformName name) (t : StringText)
    (rest : List UInt8) (n : ν) (r : List UInt8) :
    name (t.1 ++ quote :: rest) = .ok (n, r) ↔ r = rest ∧ Names name t n := by
  constructor
  · exact uniform t rest n r
  · rintro ⟨rfl, names⟩
    exact names r

/-- A text follows the string that it is read from. -/
lemma follows_text : Follows text fun v x => ∃ t, v = .string t ∧ Names string t x := by
  intro v bytes rest spells ends x r
  obtain ⟨blanks, tail, blank, tailed, rfl⟩ := spells_value_iff.mp spells
  rw [List.append_assoc, List.cons_append, text, skipSpace_value blank]
  by_cases isString : v.head = quote
  · obtain ⟨t, rfl⟩ := v.head_iff.1.mp isString
    obtain rfl := tailed
    simp [isString, uniformName_string.read_iff]
  · have none : ∀ t, v ≠ .string t := fun t eq => isString (v.head_iff.1.mpr ⟨t, eq⟩)
    simp [isString, none]

/-- A text is the same for every spelling of its tree. -/
lemma uniform_text : Uniform text :=
  follows_text.uniform

/-- A number as one of 32 bits. -/
def Number.small : Number → Except Fault UInt32
  | .integer v =>
    if 0 ≤ v && v.toNat < UInt32.size then .ok v.toNat.toUInt32 else .error .mismatched
  | .real .. => .error .mismatched

/-- An integer of 32 bits is read from a numeral like a number, and has to be small. -/
lemma uint32_numeral {v : Tree} (numeral : (v.head == minus || isDigit v.head) = true)
    {blanks : List UInt8} (blank : Blank blanks) (s : List UInt8) :
    uint32 (blanks ++ v.head :: s)
      = (number (v.head :: s)).bind fun p => p.1.small.map (·, p.2) := by
  rw [uint32, skipSpace_value blank]
  dsimp only
  rw [if_pos numeral]
  simp only [bind]
  congr 1
  refine funext ?_
  rintro ⟨n, s⟩
  cases n with
  | integer k =>
    dsimp only [Number.small]
    split <;> rfl
  | real => rfl

/-- An integer of 32 bits is the same for every spelling of its tree. -/
lemma uniform_uint32 : Uniform uint32 := by
  intro v
  by_cases numeral : (v.head == minus || isDigit v.head) = true
  · obtain ⟨n, rfl⟩ := Tree.head_numeral.mp numeral
    obtain ⟨result, read⟩ := n.2.number
    refine (followsAt_of_result (result.bind Number.small) ?_).canonical
    intro bytes rest spells ends
    obtain ⟨blanks, tail, blank, tailed, rfl⟩ := spells_value_iff.mp spells
    rw [List.append_assoc, List.cons_append, uint32_numeral numeral blank, ← List.cons_append,
      show (Tree.number n).head :: tail = n.1 from tailed, read rest ends]
    cases result <;> rfl
  · refine (followsAt_of_error fun bytes rest spells ends => ?_).canonical
    obtain ⟨blanks, tail, blank, tailed, rfl⟩ := spells_value_iff.mp spells
    rw [List.append_assoc, List.cons_append, uint32, skipSpace_value blank]
    exact ⟨_, if_neg numeral⟩

/-! ## Arrays -/

/-- The next item of an array is found after what separates it from the one before. -/
lemma nextElement_spelled {first : Bool} {before bytes : List UInt8} {v : Tree}
    (separates : Separates first before) (spells : Spells (.value v) bytes) (s : List UInt8) :
    ∃ token, Spells (.value v) token
      ∧ nextElement first (before ++ (bytes ++ s)) = .ok (some (token ++ s)) := by
  obtain ⟨blanks, tail, blank, tailed, rfl⟩ := spells_value_iff.mp spells
  refine ⟨v.head :: tail, spells_value_iff.mpr ⟨[], tail, blank_nil, tailed, rfl⟩, ?_⟩
  have start := skipSpace_value blank v (tail ++ s)
  have goesOn := v.head_not_mem
  simp only [List.mem_cons, not_or] at goesOn
  cases separates with
  | first => simp [nextElement, start, goesOn]
  | @comma blanks' blank' =>
    have comma := skipSpace_ink blank' (b := comma) (by decide) (blanks ++ v.head :: (tail ++ s))
    have ne : Ascii.comma ≠ closeBracket := by decide
    simp [nextElement, comma, ne, start, goesOn]

/-- The loop over items gives the meanings of those that are left. -/
lemma elements_follows {item : Reader α} {meaning : Tree → α → Prop} {vs : List Tree}
    (follows : ∀ v ∈ vs, FollowsAt item v (meaning v)) {first : Bool} {bytes : List UInt8}
    (spells : Spells (.items first vs) bytes) {rounds : ℕ} (enough : vs.length < rounds)
    (rest : List UInt8) (xs : List α) (r : List UInt8) :
    elements item rounds first (bytes ++ rest) = .ok (xs, r)
      ↔ r = rest ∧ List.Forall₂ meaning vs xs := by
  induction vs generalizing first bytes rounds xs with
  | nil =>
    obtain ⟨rounds, rfl⟩ : ∃ n, rounds = n + 1 := ⟨rounds - 1, by simp at enough; omega⟩
    cases spells with
    | @endItems _ blanks blank =>
      have stop := skipSpace_ink blank (b := closeBracket) (by decide) rest
      have read : elements item (rounds + 1) first (blanks ++ [closeBracket] ++ rest)
          = .ok ([], rest) := by
        simp [elements, nextElement, closeArray, stop, bind, Except.bind, pure, Except.pure]
      rw [read]
      simp [List.forall₂_nil_left_iff, and_comm, eq_comm]
  | cons v vs ih =>
    obtain ⟨rounds, rfl⟩ : ∃ n, rounds = n + 1 := ⟨rounds - 1, by omega⟩
    obtain ⟨here, later⟩ := List.forall_mem_cons.mp follows
    cases spells with
    | @item _ _ _ before bytes more separates value items =>
      obtain ⟨token, spelled, next⟩ := nextElement_spelled separates value (more ++ rest)
      rw [List.append_assoc, List.append_assoc, elements, next]
      have readItem := here token (more ++ rest) spelled (items.endsNumeral_items rest)
      have readRest := fun xs => ih later items (by simpa using enough) xs
      simp only [Except.bind_eq_ok, Except.ok.injEq, exists_eq_left', Prod.exists, readItem,
        Except.pure_eq_ok, Prod.mk.injEq]
      constructor
      · rintro ⟨x, s, ⟨rfl, hx⟩, xs, s, read, rfl, rfl⟩
        obtain ⟨rfl, hxs⟩ := (readRest xs).mp read
        exact ⟨rfl, .cons hx hxs⟩
      · rintro ⟨rfl, meanings⟩
        cases meanings with
        | cons hx hxs =>
          exact ⟨_, _, ⟨rfl, hx⟩, _, _, (readRest _).mpr ⟨rfl, hxs⟩, rfl, rfl⟩

/-- A list follows the array that it is read from, item by item. -/
lemma follows_list {item : Reader α} {meaning : Tree → α → Prop} (follows : Follows item meaning) :
    Follows (list item) fun v xs => ∃ vs, v = .array vs ∧ List.Forall₂ meaning vs xs := by
  intro v bytes rest spells ends xs r
  obtain ⟨blanks, tail, blank, tailed, rfl⟩ := spells_value_iff.mp spells
  rw [List.append_assoc, List.cons_append, list, skipSpace_value blank]
  by_cases isArray : v.head = openBracket
  · obtain ⟨vs, rfl⟩ := v.head_iff.2.1.mp isArray
    have enough : vs.length < tail.length + rest.length + 1 := by
      have shorter := Spells.length_items tailed
      omega
    simp [isArray, elements_follows (fun v _ => follows v) tailed enough]
  · have none : ∀ vs, v ≠ .array vs := fun vs eq => isArray (v.head_iff.2.1.mpr ⟨vs, eq⟩)
    simp [isArray, none]

/-- A list is the same for every spelling of its tree if its items are. -/
lemma uniform_list {item : Reader α} (uniform : Uniform item) : Uniform (list item) :=
  (follows_list uniform).uniform

/-! ## Objects -/

/-- Members take a state to another one, each by the reader that is chosen for its name. -/
inductive Gathers (name : Reader ν) (member : σ → ν → Except Fault (Reader σ)) :
    σ → List (StringText × Tree) → σ → Prop where
  | nil {state} :
    Gathers name member state [] state
  | cons {state next last t n v read ms} :
    Names name t n →
    member state n = .ok read →
    Means read v next →
    Gathers name member next ms last →
    Gathers name member state ((t, v) :: ms) last

/-- The next name of an object is found after what separates it from the member before. -/
lemma nextName_spelled {first : Bool} {before blanks : List UInt8}
    (separates : Separates first before) (blank : Blank blanks) (t : StringText)
    (s : List UInt8) :
    nextName first (before ++ (blanks ++ (t.bytes ++ s))) = .ok (some (t.1 ++ quote :: s)) := by
  have start := skipSpace_ink blank (b := quote) (by decide) (t.1 ++ quote :: s)
  have whole : t.bytes ++ s = quote :: (t.1 ++ quote :: s) := by simp [StringText.bytes]
  rw [whole]
  cases separates with
  | first =>
    have ne : quote ≠ closeBrace := by decide
    simp [nextName, start, ne]
  | @comma blanks' blank' =>
    have comma :=
      skipSpace_ink blank' (b := comma) (by decide) (blanks ++ quote :: (t.1 ++ quote :: s))
    have ne : Ascii.comma ≠ closeBrace := by decide
    simp [nextName, comma, ne, start]

/-- The end of a name is found after blanks. -/
lemma nameEnd_spelled {blanks : List UInt8} (blank : Blank blanks) (s : List UInt8) :
    nameEnd (blanks ++ colon :: s) = .ok s := by
  have start := skipSpace_ink blank (b := colon) (by decide) s
  simp [nameEnd, start]

section Members

variable {name : Reader ν} {member : σ → ν → Except Fault (Reader σ)}

/-- The loop over members gives what those that are left gather. -/
lemma members_follows {ms : List (StringText × Tree)} (names : UniformName name)
    (follows : ∀ m ∈ ms, ∀ state n read, member state n = .ok read →
      FollowsAt read m.2 (Means read m.2))
    {first : Bool} {bytes : List UInt8} (spells : Spells (.members first ms) bytes) {rounds : ℕ}
    (enough : ms.length < rounds) (state : σ) (rest : List UInt8) (last : σ) (r : List UInt8) :
    members name member rounds first state (bytes ++ rest) = .ok (last, r)
      ↔ r = rest ∧ Gathers name member state ms last := by
  induction ms generalizing first bytes rounds state with
  | nil =>
    obtain ⟨rounds, rfl⟩ : ∃ n, rounds = n + 1 := ⟨rounds - 1, by simp at enough; omega⟩
    cases spells with
    | @endMembers _ blanks blank =>
      have stop := skipSpace_ink blank (b := closeBrace) (by decide) rest
      have read : members name member (rounds + 1) first state (blanks ++ [closeBrace] ++ rest)
          = .ok (state, rest) := by
        simp [members, nextName, closeObject, stop, bind, Except.bind, pure, Except.pure]
      rw [read]
      constructor
      · rintro eq
        cases eq
        exact ⟨rfl, .nil⟩
      · rintro ⟨rfl, gathers⟩
        cases gathers
        rfl
  | cons m ms ih =>
    obtain ⟨rounds, rfl⟩ : ∃ n, rounds = n + 1 := ⟨rounds - 1, by omega⟩
    obtain ⟨here, later⟩ := List.forall_mem_cons.mp follows
    cases spells with
    | @member _ t v _ before blanks blanks' bytes more separates blank blank' value members =>
      -- a member is its name, a colon and its value; what follows is left to the induction
      have next :=
        nextName_spelled separates blank t (blanks' ++ colon :: (bytes ++ (more ++ rest)))
      have toValue := nameEnd_spelled blank' (bytes ++ (more ++ rest))
      have readRest := fun state => ih later members (by simpa using enough) state
      have ends := members.endsNumeral_members rest
      simp only [List.append_assoc, List.cons_append]
      rw [Json.members, next]
      simp only [Except.bind_eq_ok, Except.ok.injEq, exists_eq_left', Prod.exists, names.read_iff]
      constructor
      · rintro ⟨n, s, ⟨rfl, hn⟩, read, known, s, colon, next, s', hread, hrest⟩
        rw [toValue] at colon
        cases colon
        obtain ⟨rfl, hv⟩ := (here state n read known bytes _ value ends _ _).mp hread
        obtain ⟨rfl, hms⟩ := (readRest next).mp hrest
        exact ⟨rfl, .cons hn known hv hms⟩
      · rintro ⟨rfl, gathers⟩
        cases gathers with
        | @cons _ next _ _ n _ read _ hn known hv hms =>
          refine ⟨n, _, ⟨rfl, hn⟩, read, known, _, toValue, next, _, hv bytes value _ ends, ?_⟩
          exact (readRest next).mpr ⟨rfl, hms⟩

end Members

/-! ## Values that are passed over -/

/-- Every string is a name that is passed over. -/
lemma names_skip (t : StringText) :
    Names (fun s => do return ((), ← skipString s)) t () := by
  intro rest
  simp only [t.2.skip rest, bind, Except.bind, pure, Except.pure]

/-- A name that is passed over leaves the same for every spelling. -/
lemma uniformName_skip : UniformName (fun s => do return ((), ← skipString s) : Reader Unit) := by
  intro t rest n r read
  cases (names_skip t rest).symm.trans read
  exact ⟨rfl, names_skip t⟩

/-- Members that are passed over leave nothing. -/
lemma gathers_skipped {read : Reader Unit} {ms : List (StringText × Tree)}
    (means : ∀ m ∈ ms, Means read m.2 ()) :
    Gathers (fun s => do return ((), ← skipString s)) (fun _ _ => .ok read) () ms () := by
  induction ms with
  | nil => exact .nil
  | cons m ms ih =>
    obtain ⟨here, later⟩ := List.forall_mem_cons.mp means
    exact .cons (names_skip m.1) rfl here (ih later)

/-- A value is passed over to its end if it does not nest too deep. -/
lemma skipNested_follows {depth : ℕ} {v : Tree} (within : Within depth v) :
    FollowsAt (skipNested depth) v fun _ => True := by
  induction depth generalizing v with
  | zero => cases within
  | succ depth ih =>
    suffices skips : ∀ bytes rest, Spells (.value v) bytes → EndsNumeral rest →
        skipNested (depth + 1) (bytes ++ rest) = .ok ((), rest) by
      intro bytes rest spells ends x r
      rw [skips bytes rest spells ends]
      simp [eq_comm]
    intro bytes rest spells ends
    obtain ⟨blanks, tail, blank, tailed, rfl⟩ := spells_value_iff.mp spells
    rw [List.append_assoc, List.cons_append, skipNested, skipWith, skipSpace_value blank]
    -- the head of the tree decides which branch is taken
    cases within with
    | @word _ w =>
      obtain rfl := tailed
      have passed := word_append w.tail rest
      cases w <;> exact congrArg (·.map ((), ·)) passed
    | @number _ n =>
      have other := not_mem_of_numeral (Tree.head_number n)
      simp only [List.mem_cons, not_or] at other
      have numeral := Tree.head_numeral.mpr ⟨n, rfl⟩
      have whole : (Tree.number n).head :: tail = n.1 := tailed
      have skipped := n.2.skip ends
      rw [← whole, List.cons_append] at skipped
      simp [other, numeral, skipped, bind, Except.bind, pure, Except.pure]
    | @string _ t =>
      obtain rfl := tailed
      have skipped := t.2.skip rest
      rw [List.append_assoc]
      exact congrArg (·.map ((), ·)) skipped
    | @array _ vs within =>
      have enough : vs.length < (tail ++ rest).length + 1 := by
        have shorter := Spells.length_items tailed
        rw [List.length_append]
        omega
      have read := (elements_follows (fun v mem => ih (within v mem)) tailed enough rest
        (vs.map fun _ => ()) rest).mpr
        ⟨rfl, List.forall₂_map_right_iff.mpr (List.forall₂_same.mpr fun _ _ => trivial)⟩
      exact congrArg (·.map fun p => ((), p.2)) read
    | @object _ ms within =>
      have enough : ms.length < (tail ++ rest).length + 1 := by
        have shorter := Spells.length_members tailed
        rw [List.length_append]
        omega
      -- members that are skipped gather nothing
      have skips : ∀ m ∈ ms, FollowsAt (skipNested depth) m.2 fun _ => True :=
        fun m mem => ih (within m mem)
      have read : members (fun s => do return ((), ← skipString s))
          (fun _ _ => .ok (skipNested depth)) ((tail ++ rest).length + 1) true () (tail ++ rest)
          = .ok ((), rest) := by
        refine (members_follows uniformName_skip ?_ tailed enough () rest () rest).mpr ⟨rfl, ?_⟩
        · rintro m mem state n read ⟨⟩
          exact (skips m mem).canonical
        · exact gathers_skipped fun m mem => ((skips m mem).means ()).mpr trivial
      exact read

/-- Any tree can be passed over. -/
lemma follows_skipValue : Follows skipValue fun _ _ => True := by
  intro v bytes rest spells ends x r
  have deep := spells.within ((bytes ++ rest).length + 1) (by rw [List.length_append]; omega)
  exact skipNested_follows deep bytes rest spells ends x r

/-! ## Records -/

/-- Items take a draft to another one, each by the slot in its place. -/
inductive InOrder : List (Slot σ) → σ → List Tree → σ → Prop where
  | nil {slots draft} :
    InOrder slots draft [] draft
  | cons {slot slots draft next last v vs} :
    Means (slot.fill draft) v next →
    InOrder slots next vs last →
    InOrder (slot :: slots) draft (v :: vs) last

/-- What a record is taken for: an object by what its members gather, an array by its items in their
order. -/
inductive Records (slots : List (Slot σ)) (blank : σ) (finish : σ → Option α) :
    Tree → α → Prop where
  | object {ms last x} :
    Gathers string (slotNamed slots) blank ms last →
    finish last = some x →
    Records slots blank finish (.object ms) x
  | array {vs last x} :
    InOrder slots blank vs last →
    finish last = some x →
    Records slots blank finish (.array vs) x

section Records

variable {slots : List (Slot σ)}

/-- An unknown member leaves the draft as it is. -/
lemma passed_follows (draft : σ) (v : Tree) :
    FollowsAt (fun s => do return (draft, (← skipValue s).2)) v (· = draft) := by
  intro bytes rest spells ends next r
  have skipped := (follows_skipValue v bytes rest spells ends () rest).mpr ⟨rfl, trivial⟩
  simp only [skipped, bind, Except.bind, pure, Except.pure, Except.ok.injEq, Prod.mk.injEq]
  grind

/-- How a value is read after its name depends on its tree alone. -/
lemma slotNamed_uniform (uniform : ∀ slot ∈ slots, ∀ draft, Uniform (slot.fill draft))
    {draft : σ} {name : String} {read : Reader σ} (known : slotNamed slots draft name = .ok read) :
    Uniform read := by
  unfold slotNamed at known
  split at known
  · cases known
    exact fun v => (passed_follows draft v).canonical
  · rename_i slot found
    split at known
    · cases known
    · cases known
      exact uniform slot (List.mem_of_find?_eq_some found) draft

/-- An array does not close where an item stands. -/
lemma closeArray_item {first : Bool} {before bytes : List UInt8} {v : Tree}
    (separates : Separates first before) (spells : Spells (.value v) bytes) (s r : List UInt8) :
    closeArray (before ++ (bytes ++ s)) ≠ .ok r := by
  obtain ⟨blanks, tail, blank, -, rfl⟩ := spells_value_iff.mp spells
  have goesOn := v.head_not_mem
  simp only [List.mem_cons, not_or] at goesOn
  cases separates with
  | first =>
    have start := skipSpace_value blank v (tail ++ s)
    simp [closeArray, start, goesOn]
  | @comma blanks' blank' =>
    have comma := skipSpace_ink blank' (b := comma) (by decide) (blanks ++ v.head :: (tail ++ s))
    have ne : Ascii.comma ≠ closeBracket := by decide
    simp [closeArray, comma, ne]

/-- Nothing is read where an array closes. -/
lemma slotsInOrder_close {blanks : List UInt8} (blank : Blank blanks) (first : Bool) (draft : σ)
    (rest : List UInt8) : slotsInOrder slots first draft (blanks ++ closeBracket :: rest)
      = .ok (draft, blanks ++ closeBracket :: rest) := by
  have stop := skipSpace_ink blank (b := closeBracket) (by decide) rest
  cases slots with
  | nil => rfl
  | cons slot slots =>
    simp [slotsInOrder, nextElement, stop, bind, Except.bind, pure, Except.pure]

/-- Items are read into a draft in their order, as many as there are. -/
lemma slotsInOrder_follows (uniform : ∀ slot ∈ slots, ∀ draft, Uniform (slot.fill draft))
    {first : Bool} {vs : List Tree} {bytes : List UInt8} (spells : Spells (.items first vs) bytes)
    (draft : σ) (rest : List UInt8) (last : σ) (r : List UInt8) :
    (∃ s, slotsInOrder slots first draft (bytes ++ rest) = .ok (last, s) ∧ closeArray s = .ok r)
      ↔ r = rest ∧ InOrder slots draft vs last := by
  induction vs generalizing slots first bytes draft with
  | nil =>
    cases spells with
    | @endItems _ blanks blank =>
      have stop := skipSpace_ink blank (b := closeBracket) (by decide) rest
      have closed : closeArray (blanks ++ closeBracket :: rest) = .ok rest := by
        simp [closeArray, stop]
      rw [List.append_assoc, List.singleton_append, slotsInOrder_close blank]
      constructor
      · rintro ⟨s, ⟨⟩, read⟩
        cases closed.symm.trans read
        exact ⟨rfl, .nil⟩
      · rintro ⟨rfl, inOrder⟩
        cases inOrder
        exact ⟨_, rfl, closed⟩
  | cons v vs ih =>
    cases spells with
    | @item _ _ _ before bytes more separates value items =>
      rw [List.append_assoc, List.append_assoc]
      -- where no slot is left the list would have to end
      cases slots with
      | nil =>
        constructor
        · rintro ⟨s, ⟨⟩, read⟩
          exact absurd read (closeArray_item separates value _ r)
        · rintro ⟨-, inOrder⟩
          cases inOrder
      | cons slot slots =>
        obtain ⟨here, later⟩ := List.forall_mem_cons.mp uniform
        obtain ⟨token, spelled, next⟩ := nextElement_spelled separates value (more ++ rest)
        have readItem := here draft v token (more ++ rest) spelled (items.endsNumeral_items rest)
        have readRest := fun draft => ih later items draft
        rw [slotsInOrder, next]
        simp only [Except.bind_eq_ok, Except.ok.injEq, exists_eq_left', Prod.exists, readItem]
        constructor
        · rintro ⟨s, ⟨next, _, ⟨rfl, hv⟩, read⟩, closed⟩
          obtain ⟨rfl, hvs⟩ := (readRest next).mp ⟨s, read, closed⟩
          exact ⟨rfl, .cons hv hvs⟩
        · rintro ⟨rfl, inOrder⟩
          cases inOrder with
          | @cons _ _ _ next _ _ _ hv hvs =>
            obtain ⟨s, read, closed⟩ := (readRest next).mpr ⟨rfl, hvs⟩
            exact ⟨s, ⟨next, _, ⟨rfl, hv⟩, read⟩, closed⟩

/-- The reader of a record takes what the record is taken for. -/
lemma follows_record (uniform : ∀ slot ∈ slots, ∀ draft, Uniform (slot.fill draft)) (blank : σ)
    (finish : σ → Option α) : Follows (record slots blank finish) (Records slots blank finish) := by
  intro v bytes rest spells ends x r
  obtain ⟨blanks, tail, blank', tailed, rfl⟩ := spells_value_iff.mp spells
  rw [List.append_assoc, List.cons_append, record, skipSpace_value blank']
  by_cases isObject : v.head = openBrace
  · obtain ⟨ms, rfl⟩ := v.head_iff.2.2.1.mp isObject
    have enough : ms.length < (tail ++ rest).length + 1 := by
      have shorter := Spells.length_members tailed
      rw [List.length_append]
      omega
    have read (last : σ) (r : List UInt8) :
        members string (slotNamed slots) ((tail ++ rest).length + 1) true blank (tail ++ rest)
          = .ok (last, r) ↔ r = rest ∧ Gathers string (slotNamed slots) blank ms last :=
      members_follows uniformName_string
        (fun m _ state n read known => slotNamed_uniform uniform known m.2) tailed enough blank
        rest last r
    simp only [Tree.head, beq_self_eq_true, if_true, Except.bind_eq_ok, Prod.exists, read,
      Except.pure_eq_ok, Prod.mk.injEq]
    constructor
    · rintro ⟨last, _, ⟨rfl, gathers⟩, _, known, rfl, rfl⟩
      split at known
      case h_1 x done =>
        cases known
        exact ⟨rfl, .object gathers done⟩
      case h_2 => cases known
    · rintro ⟨rfl, records⟩
      cases records with
      | @object _ last _ gathers known =>
        exact ⟨last, _, ⟨rfl, gathers⟩, _, by rw [known], rfl, rfl⟩
  -- a list has the members in the order of their slots
  by_cases isArray : v.head = openBracket
  · obtain ⟨vs, rfl⟩ := v.head_iff.2.1.mp isArray
    have read := slotsInOrder_follows uniform tailed blank rest
    have ne : openBracket ≠ openBrace := by decide
    simp only [Tree.head, beq_iff_eq, ne, if_false, if_true, Except.bind_eq_ok, Prod.exists,
      Except.pure_eq_ok, Prod.mk.injEq]
    constructor
    · rintro ⟨last, s, items, _, known, _, closed, rfl, rfl⟩
      obtain ⟨rfl, inOrder⟩ := (read last _).mp ⟨s, items, closed⟩
      split at known
      case h_1 x done =>
        cases known
        exact ⟨rfl, .array inOrder done⟩
      case h_2 => cases known
    · rintro ⟨rfl, records⟩
      cases records with
      | @array _ last _ inOrder known =>
        obtain ⟨s, items, closed⟩ := (read last r).mpr ⟨rfl, inOrder⟩
        exact ⟨last, s, items, _, by rw [known], _, closed, rfl, rfl⟩
  · have none : ¬ Records slots blank finish v x := by
      rintro (_ | _)
      · exact isObject rfl
      · exact isArray rfl
    simp [isObject, isArray, none]

end Records

end MetricRegistry.Json
