import Mathlib.Data.List.Pairwise
import MetricRegistry.Proofs.Json.Uniformity

/-!
# Rearranged records

The members of a record may be put into another order, unknown ones added, lists left out that are
empty, and items of a list changed inside. `Rearranged` is the closure of these steps. A record that
is read into a draft, each member into a place of its own (`Slot.Apart`), is taken for the same
afterwards: `Gathers.perm` says so of the order, and `Rearranged.means` of all steps.
-/

namespace MetricRegistry.Json
open Ascii

variable {α β γ σ : Type}

/-! ## Places of a draft -/

/-- A value is read into a place of a draft that is free. -/
def Slot.Puts (slot : Slot σ) (draft : σ) (v : Tree) (next : σ) : Prop :=
  slot.filled draft = false ∧ Means (slot.fill draft) v next

/-- What is read into one place and then into another may be read in the other order. -/
def Slot.Swaps (slot slot' : Slot σ) : Prop :=
  ∀ draft next last v w, slot.Puts draft v next → slot'.Puts next w last →
    ∃ next', slot'.Puts draft w next' ∧ slot.Puts next' v last

/-- Two places do not touch each other. -/
def Slot.Apart (slot slot' : Slot σ) : Prop :=
  slot.Swaps slot' ∧ slot'.Swaps slot

instance : Std.Symm (@Slot.Apart σ) where
  symm _ _ apart := ⟨apart.2, apart.1⟩

/-- A place is read by the tree, and is not free afterwards. -/
structure Slot.Single (slot : Slot σ) : Prop where
  uniform : ∀ draft, Uniform (slot.fill draft)
  once : ∀ draft v next, slot.Puts draft v next → slot.filled next = true

/-- Places of a draft that are read once each and do not touch each other. -/
structure Tidy (slots : List (Slot σ)) : Prop where
  single : ∀ slot ∈ slots, slot.Single
  apart : slots.Pairwise Slot.Apart

section Places

variable {name : String} {get : σ → Option β} {set : σ → β → σ} {read : Reader β}

/-- The member of a record has the name that it is made with. -/
@[simp]
lemma Slot.of_name : (Slot.of name get set read).name = name :=
  rfl

/-- A member is filled with what its reader makes of a tree. -/
lemma fill_follows (uniform : Uniform read) (draft : σ) (v : Tree) :
    FollowsAt ((Slot.of name get set read).fill draft) v
      fun next => ∃ x, Means read v x ∧ next = set draft x := by
  intro bytes rest spells ends next r
  have read := uniform v bytes rest spells ends
  simp only [Slot.of, Except.bind_eq_ok, Prod.exists, read, Except.pure_eq_ok, Prod.mk.injEq]
  constructor
  · rintro ⟨x, _, ⟨rfl, means⟩, rfl, rfl⟩
    exact ⟨rfl, x, means, rfl⟩
  · rintro ⟨rfl, x, means, rfl⟩
    exact ⟨x, _, ⟨rfl, means⟩, rfl, rfl⟩

/-- A tree is put where a draft has nothing yet. -/
lemma puts_of_iff (uniform : Uniform read) {draft next : σ} {v : Tree} :
    (Slot.of name get set read).Puts draft v next
      ↔ get draft = none ∧ ∃ x, Means read v x ∧ next = set draft x := by
  rw [Slot.Puts, (fill_follows uniform draft v).means]
  simp [Slot.of]

/-- A member is filled once. -/
lemma single_of (uniform : Uniform read) (seen : ∀ draft x, get (set draft x) = some x) :
    (Slot.of name get set read).Single where
  uniform draft v := (fill_follows uniform draft v).canonical
  once draft v next puts := by
    obtain ⟨-, x, -, rfl⟩ := (puts_of_iff uniform).mp puts
    simp [Slot.of, seen]

section Two

variable {name' : String} {get' : σ → Option γ} {set' : σ → γ → σ} {read' : Reader γ}

/-- Two members are filled in either order. -/
lemma swaps_of (uniform : Uniform read) (uniform' : Uniform read')
    (unseen : ∀ draft x, get' (set draft x) = get' draft)
    (unseen' : ∀ draft y, get (set' draft y) = get draft)
    (commute : ∀ draft x y, set' (set draft x) y = set (set' draft y) x) :
    (Slot.of name get set read).Swaps (.of name' get' set' read') := by
  intro draft next last v w first second
  rw [puts_of_iff uniform] at first
  rw [puts_of_iff uniform'] at second
  obtain ⟨free, x, means, rfl⟩ := first
  obtain ⟨free', y, means', rfl⟩ := second
  rw [unseen] at free'
  refine ⟨set' draft y, (puts_of_iff uniform').mpr ⟨free', y, means', rfl⟩,
    (puts_of_iff uniform).mpr ⟨?_, x, means, commute draft x y⟩⟩
  rw [unseen', free]

/-- Places are apart if what is set in one is neither seen nor undone by the other. -/
lemma apart_of (uniform : Uniform read) (uniform' : Uniform read')
    (unseen : ∀ draft x, get' (set draft x) = get' draft)
    (unseen' : ∀ draft y, get (set' draft y) = get draft)
    (commute : ∀ draft x y, set' (set draft x) y = set (set' draft y) x) :
    (Slot.of name get set read).Apart (.of name' get' set' read') :=
  ⟨swaps_of uniform uniform' unseen unseen' commute,
    swaps_of uniform' uniform unseen' unseen fun draft y x => (commute draft x y).symm⟩

end Two

/-- A place of a draft that shows what is set there, and how to read into it. -/
structure Place (σ : Type) where
  {content : Type}
  name : String
  get : σ → Option content
  set : σ → content → σ
  read : Reader content
  uniform : Uniform read
  seen : ∀ draft x, get (set draft x) = some x

namespace Place

/-- The place that a member of a record is read into. -/
def of (uniform : Uniform read) (seen : ∀ draft x, get (set draft x) = some x := by intros; rfl) :
    Place σ :=
  ⟨name, get, set, read, uniform, seen⟩

/-- The member that is read into a place. -/
def slot (p : Place σ) : Slot σ :=
  .of p.name p.get p.set p.read

/-- What is set in one place is neither seen nor undone in the other. -/
def Apart (p q : Place σ) : Prop :=
  (∀ draft x, q.get (p.set draft x) = q.get draft)
    ∧ (∀ draft y, p.get (q.set draft y) = p.get draft)
    ∧ ∀ draft x y, q.set (p.set draft x) y = p.set (q.set draft y) x

/-- The members of a record are tidy if each is read into a place of its own. -/
lemma tidy (places : List (Place σ)) (apart : places.Pairwise Apart) :
    Tidy (places.map slot) where
  single := List.forall_mem_map.mpr fun p _ => single_of p.uniform p.seen
  apart := List.pairwise_map.mpr <| apart.imp fun {p q} ⟨unseen, unseen', commute⟩ =>
    apart_of p.uniform q.uniform unseen unseen' commute

end Place

section Lists

variable {item : Reader γ} {get : σ → Option (List γ)} {set : σ → List γ → σ} {draft next : σ}

/-- An empty list is lost if the draft is finished alike without it. -/
lemma finish_of_puts_empty (uniform : Uniform item) {finish : σ → Option α}
    (lost : ∀ draft, get draft = none → finish (set draft []) = finish draft)
    (puts : (Slot.of name get set (list item)).Puts draft (.array []) next) :
    finish next = finish draft := by
  have listed := follows_list uniform
  obtain ⟨free, xs, means, rfl⟩ := (puts_of_iff listed.uniform).mp puts
  obtain ⟨vs, eq, meanings⟩ := ((listed _).means xs).mp means
  cases eq
  cases meanings
  exact lost draft free

/-- An item of a list may be replaced by another that is taken for the same. -/
lemma Slot.Puts.replace (uniform : Uniform item) {v v' : Tree}
    (same : ∀ x, Means item v x → Means item v' x) {vs ws : List Tree}
    (puts : (Slot.of name get set (list item)).Puts draft (.array (vs ++ v :: ws)) next) :
    (Slot.of name get set (list item)).Puts draft (.array (vs ++ v' :: ws)) next := by
  have listed := follows_list uniform
  rw [puts_of_iff listed.uniform] at puts ⊢
  obtain ⟨free, xs, means, rfl⟩ := puts
  obtain ⟨_, eq, meanings⟩ := ((listed _).means xs).mp means
  cases eq
  refine ⟨free, xs, ((listed _).means xs).mpr ⟨_, rfl, ?_⟩, rfl⟩
  clear means
  induction vs generalizing xs with
  | nil =>
    cases meanings with
    | cons here others => exact .cons (same _ here) others
  | cons _ _ ih =>
    cases meanings with
    | cons here others => exact .cons here (ih _ others)

end Lists

end Places

/-! ## Members in another order -/

/-- A string names one thing to a reader. -/
lemma Names.unique {ν : Type} {name : Reader ν} {t : StringText} {n n' : ν}
    (names : Names name t n) (names' : Names name t n') : n = n' := by
  cases (names []).symm.trans (names' [])
  rfl

section Orders

variable {slots : List (Slot σ)} {draft last : σ} {ms ms' : List (StringText × Tree)}

/-- What is found by a name is there and has it. -/
lemma found_named {slot : Slot σ} {name : String}
    (found : slots.find? (·.name == name) = some slot) : slot ∈ slots ∧ slot.name = name :=
  ⟨List.mem_of_find?_eq_some found, by simpa using List.find?_some found⟩

/-- A member is passed over if its name is unknown, and read into the place that is kept for it
otherwise. -/
lemma slotNamed_cases {name : String} {read : Reader σ} {v : Tree} {next : σ}
    (known : slotNamed slots draft name = .ok read) (means : Means read v next) :
    (slots.find? (·.name == name) = none ∧ next = draft)
      ∨ ∃ slot, slots.find? (·.name == name) = some slot ∧ slot.Puts draft v next := by
  unfold slotNamed at known
  split at known
  case h_1 unknown =>
    cases known
    exact .inl ⟨unknown, ((passed_follows draft v).means next).mp means⟩
  case h_2 slot found =>
    split at known
    · cases known
    case isFalse free =>
      cases known
      exact .inr ⟨slot, found, by simpa using free, means⟩

/-- A member with an unknown name is passed over. -/
lemma Gathers.pass {t : StringText} {name : String} {v : Tree} (named : Names string t name)
    (unknown : slots.find? (·.name == name) = none)
    (gathers : Gathers string (slotNamed slots) draft ms last) :
    Gathers string (slotNamed slots) draft ((t, v) :: ms) last := by
  refine .cons named ?_ (((passed_follows draft v).means draft).mpr rfl) gathers
  rw [slotNamed, unknown]

/-- A member with a known name is put into the draft. -/
lemma Gathers.put {slot : Slot σ} {t : StringText} {name : String} {v : Tree} {next : σ}
    (named : Names string t name) (found : slots.find? (·.name == name) = some slot)
    (puts : slot.Puts draft v next) (gathers : Gathers string (slotNamed slots) next ms last) :
    Gathers string (slotNamed slots) draft ((t, v) :: ms) last := by
  refine .cons named ?_ puts.2 gathers
  rw [slotNamed, found]
  dsimp only
  rw [puts.1]
  rfl

/-- The first member is passed over or put into its place. -/
lemma Gathers.cons_cases {t : StringText} {v : Tree}
    (gathers : Gathers string (slotNamed slots) draft ((t, v) :: ms) last) :
    ∃ name next, Names string t name ∧ Gathers string (slotNamed slots) next ms last
      ∧ ((slots.find? (·.name == name) = none ∧ next = draft)
        ∨ ∃ slot, slots.find? (·.name == name) = some slot ∧ slot.Puts draft v next) := by
  cases gathers with
  | @cons _ next _ _ name _ _ _ named known means rest =>
    exact ⟨name, next, named, rest, slotNamed_cases known means⟩

/-- Two members may change places. -/
lemma Gathers.swap (tidy : Tidy slots) {a b : StringText × Tree}
    (gathers : Gathers string (slotNamed slots) draft (a :: b :: ms) last) :
    Gathers string (slotNamed slots) draft (b :: a :: ms) last := by
  obtain ⟨t, v⟩ := a
  obtain ⟨u, w⟩ := b
  obtain ⟨name, next, named, others, first⟩ := gathers.cons_cases
  obtain ⟨name', next', named', rest, second⟩ := others.cons_cases
  rcases first with ⟨unknown, rfl⟩ | ⟨slot, found, puts⟩
  · rcases second with ⟨unknown', rfl⟩ | ⟨slot', found', puts'⟩
    · exact .pass named' unknown' (.pass named unknown rest)
    · exact .put named' found' puts' (.pass named unknown rest)
  · rcases second with ⟨unknown', rfl⟩ | ⟨slot', found', puts'⟩
    · exact .pass named' unknown' (.put named found puts rest)
    · have mem := List.mem_of_find?_eq_some found
      have mem' := List.mem_of_find?_eq_some found'
      have ne : slot ≠ slot' := by
        rintro rfl
        have filled := (tidy.single slot mem).once _ _ _ puts
        rw [puts'.1] at filled
        cases filled
      obtain ⟨between, puts', puts⟩ := (tidy.apart.forall mem mem' ne).1 _ _ _ _ _ puts puts'
      exact .put named' found' puts' (.put named found puts rest)

/-- Members gather the same in any order. -/
lemma Gathers.perm (tidy : Tidy slots) (perm : ms.Perm ms')
    (gathers : Gathers string (slotNamed slots) draft ms last) :
    Gathers string (slotNamed slots) draft ms' last := by
  induction perm generalizing draft with
  | nil => exact gathers
  | cons m _ ih =>
    cases gathers with
    | cons named known means rest => exact .cons named known means (ih rest)
  | swap => exact gathers.swap tidy
  | trans _ _ ih ih' => exact ih' (ih gathers)

/-- Members are gathered one part after the other. -/
lemma Gathers.split (gathers : Gathers string (slotNamed slots) draft (ms ++ ms') last) :
    ∃ next, Gathers string (slotNamed slots) draft ms next
      ∧ Gathers string (slotNamed slots) next ms' last := by
  induction ms generalizing draft with
  | nil => exact ⟨draft, .nil, gathers⟩
  | cons m ms ih =>
    cases gathers with
    | cons named known means rest =>
      obtain ⟨next, before, after⟩ := ih rest
      exact ⟨next, .cons named known means before, after⟩

/-- The first member may as well come last. -/
lemma Gathers.rotate (tidy : Tidy slots) {m : StringText × Tree}
    (gathers : Gathers string (slotNamed slots) draft (m :: ms) last) :
    ∃ next, Gathers string (slotNamed slots) draft ms next
      ∧ Gathers string (slotNamed slots) next [m] last :=
  (gathers.perm tidy (List.perm_append_singleton m ms).symm).split

end Orders

/-! ## Rearrangements -/

/-- What may be changed about an object. Its members may change places; one may be added whose name
is not known; one may be left out that is an empty list; and an item of a list may be changed
inside. -/
inductive Rearranged (known lists : List String) (inside : String → Tree → Tree → Prop) :
    Tree → Tree → Prop where
  | refl {v} :
    Rearranged known lists inside v v
  | trans {u v w} :
    Rearranged known lists inside u v →
    Rearranged known lists inside v w →
    Rearranged known lists inside u w
  | permute {ms ms'} :
    ms.Perm ms' →
    Rearranged known lists inside (.object ms) (.object ms')
  | insert {t name v ms} :
    Names string t name →
    name ∉ known →
    Rearranged known lists inside (.object ms) (.object ((t, v) :: ms))
  | leave {t name ms} :
    Names string t name →
    name ∈ lists →
    Rearranged known lists inside (.object ((t, .array []) :: ms)) (.object ms)
  | nested {t name vs v v' ws ms} :
    Names string t name →
    inside name v v' →
    Rearranged known lists inside (.object ((t, .array (vs ++ v :: ws)) :: ms))
      (.object ((t, .array (vs ++ v' :: ws)) :: ms))

/-- What a place of a draft allows to be changed: nothing is lost with an empty list, and items that
are changed inside are read as before. -/
structure Bears (slots : List (Slot σ)) (finish : σ → Option α) (known lists : List String)
    (inside : String → Tree → Tree → Prop) : Prop where
  known : ∀ slot ∈ slots, slot.name ∈ known
  lists : ∀ slot ∈ slots, slot.name ∈ lists →
    ∀ draft next, slot.Puts draft (.array []) next → finish next = finish draft
  inside : ∀ slot ∈ slots, ∀ v v', inside slot.name v v' →
    ∀ draft next vs ws, slot.Puts draft (.array (vs ++ v :: ws)) next →
      slot.Puts draft (.array (vs ++ v' :: ws)) next

section Rearranging

variable {slots : List (Slot σ)} {blank : σ} {finish : σ → Option α} {known lists : List String}
variable {inside : String → Tree → Tree → Prop} {v w : Tree} {x : α}

/-- A tidy record follows the members that it is read from. -/
lemma Tidy.follows (tidy : Tidy slots) :
    Follows (record slots blank finish) (Records slots blank finish) :=
  follows_record (fun slot mem => (tidy.single slot mem).uniform) blank finish

/-- Each step leaves what a record is taken for. -/
lemma Rearranged.records (tidy : Tidy slots) (bears : Bears slots finish known lists inside)
    (rearranged : Rearranged known lists inside v w) (records : Records slots blank finish v x) :
    Records slots blank finish w x := by
  induction rearranged with
  | refl => exact records
  | trans _ _ ih ih' => exact ih' (ih records)
  | permute perm =>
    cases records with
    | object gathers finished => exact .object (gathers.perm tidy perm) finished
  | @insert t name v ms named unknown =>
    cases records with
    | object gathers finished =>
      have absent : slots.find? (·.name == name) = none := by
        rw [List.find?_eq_none]
        rintro slot mem eq
        rw [beq_iff_eq] at eq
        exact unknown (eq ▸ bears.known slot mem)
      exact .object (gathers.pass named absent) finished
  | @leave t name ms named listed =>
    cases records with
    | @object _ last _ gathers finished =>
      -- the member that is left out may be gathered last, where it changes nothing
      obtain ⟨next, others, alone⟩ := gathers.rotate tidy
      obtain ⟨name', next', named', done, put⟩ := alone.cons_cases
      obtain rfl := named.unique named'
      cases done
      refine .object others ?_
      rcases put with ⟨-, rfl⟩ | ⟨slot, found, puts⟩
      · exact finished
      · obtain ⟨mem, rfl⟩ := found_named found
        rwa [← bears.lists slot mem listed _ _ puts]
  | @nested t name vs v v' ws ms named inner =>
    cases records with
    | @object _ last _ gathers finished =>
      obtain ⟨name', next, named', rest, put⟩ := gathers.cons_cases
      obtain rfl := named.unique named'
      refine .object ?_ finished
      rcases put with ⟨unknown, rfl⟩ | ⟨slot, found, puts⟩
      · exact rest.pass named unknown
      · obtain ⟨mem, rfl⟩ := found_named found
        exact rest.put named found (bears.inside slot mem v v' inner _ _ vs ws puts)

/-- A rearranged record is read as before. -/
theorem Rearranged.means (tidy : Tidy slots) (bears : Bears slots finish known lists inside)
    (rearranged : Rearranged known lists inside v w)
    (means : Means (record slots blank finish) v x) : Means (record slots blank finish) w x := by
  rw [(tidy.follows _).means] at means ⊢
  exact rearranged.records tidy bears means

end Rearranging

end MetricRegistry.Json
