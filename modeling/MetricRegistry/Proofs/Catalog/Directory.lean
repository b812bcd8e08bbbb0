import Mathlib.Data.List.Nodup
import MetricRegistry.Catalog.Schema
import MetricRegistry.Proofs.Outcome

/-!
# What a change of a directory can do

`Directory.Step` lists what the operations on a directory can do, with everything they made sure of
before: an entry is created under the next id, called something else, removed, or changed inside.
The lemmas `create_step`, `rename_step`, … read each operation's success as such a step, after the
checks that they are made of were read as what they decide (`ensureFree_eq_ok`, …,
`allocate_eq_ok`). `check_eq_ok` reads `Directory.check` as `Unambiguous`: ids below the counter,
and neither an id nor a name twice. Whatever holds of all steps is proved once for both levels of a
catalog.
-/

namespace MetricRegistry.Catalog

/-- Entries for which another naming changes the naming alone. -/
class LawfulEntry (α : Type) [Entry α] : Prop where
  id_rename : ∀ (x : α) (n : Naming), Entry.id (Entry.rename x n) = Entry.id x
  naming_rename : ∀ (x : α) (n : Naming), Entry.naming (Entry.rename x n) = n

attribute [simp] LawfulEntry.id_rename LawfulEntry.naming_rename

instance : LawfulEntry Field := ⟨fun _ _ => rfl, fun _ _ => rfl⟩

instance : LawfulEntry Metric := ⟨fun _ _ => rfl, fun _ _ => rfl⟩

/-! ## Names -/

/-- A text that may serve as a name. -/
def ValidName (t : String) : Prop :=
  t ≠ "" ∧ Text.trim t = t ∧ ∀ c ∈ t.toList, Text.isControl c = false

/-- A name passes if it is valid. -/
lemma validateName_eq_ok {what t : String} {u : Unit} :
    validateName what t = .ok u ↔ ValidName t := by
  unfold validateName ValidName
  split <;> [skip; split <;> [skip; split]] <;> simp_all

instance (t : String) : Decidable (ValidName t) :=
  decidable_of_iff (validateName "name" t = .ok ()) validateName_eq_ok

/-- No element of a list is among earlier ones or comes twice. -/
def Fresh {β : Type} (earlier xs : List β) : Prop :=
  xs.Nodup ∧ ∀ x ∈ xs, x ∉ earlier

/-- Where nothing was seen before, fresh texts are those without repetition. -/
lemma fresh_nil_left {β : Type} {xs : List β} : Fresh [] xs ↔ xs.Nodup := by
  simp [Fresh]

/-- Nothing is fresh after anything. -/
lemma fresh_nil {β : Type} {earlier : List β} : Fresh earlier [] := by
  simp [Fresh]

/-- Texts are fresh if the first was not seen and the others are fresh after it. -/
lemma fresh_cons {β : Type} {earlier xs : List β} {x : β} :
    Fresh earlier (x :: xs) ↔ x ∉ earlier ∧ Fresh (x :: earlier) xs := by
  rw [Fresh, Fresh, List.nodup_cons, List.forall_mem_cons]
  simp only [List.mem_cons, not_or]
  constructor
  · rintro ⟨⟨notMem, nodup⟩, new, fresh⟩
    refine ⟨new, nodup, fun y mem => ⟨?_, fresh y mem⟩⟩
    rintro rfl
    exact notMem mem
  · rintro ⟨new, nodup, fresh⟩
    exact ⟨⟨fun mem => (fresh x mem).1 rfl, nodup⟩, new, fun y mem => (fresh y mem).2⟩

/-- The elements of a second part have those of the first among the earlier ones. -/
lemma fresh_append {β : Type} {earlier xs ys : List β} :
    Fresh earlier (xs ++ ys) ↔ Fresh earlier xs ∧ Fresh (xs.reverse ++ earlier) ys := by
  induction xs generalizing earlier with
  | nil => simp [fresh_nil]
  | cons x xs ih =>
    rw [List.cons_append, fresh_cons, ih, fresh_cons, and_assoc, List.reverse_cons,
      List.append_assoc, List.singleton_append]

/-- Names pass after others if they are valid and fresh. -/
lemma validateAfter_eq_ok {what : String} {earlier names : List String} {u : Unit} :
    validateAfter what earlier names = .ok u
      ↔ (∀ t ∈ names, ValidName t) ∧ Fresh earlier names := by
  induction names generalizing earlier with
  | nil => simp [validateAfter, fresh_nil]
  | cons t ts ih =>
    by_cases taken : t ∈ earlier
    · simp [validateAfter, taken, fresh_cons]
    · simp only [validateAfter, Except.bind_eq_ok, validateName_eq_ok, List.contains_iff_mem, taken,
        if_false, ih, exists_const, List.forall_mem_cons, fresh_cons, not_false_eq_true, true_and,
        and_assoc]

/-- Names pass if they are valid and different. -/
lemma validateDistinct_eq_ok {what : String} {names : List String} {u : Unit} :
    validateDistinct what names = .ok u ↔ (∀ t ∈ names, ValidName t) ∧ names.Nodup := by
  rw [validateDistinct, validateAfter_eq_ok, fresh_nil_left]

/-- A check of several texts passes if it passes for each. -/
lemma forM_eq_ok {ε : Type} {check : String → Except ε PUnit} {ts : List String} {u : PUnit} :
    ts.forM check = .ok u ↔ ∀ t ∈ ts, check t = .ok () := by
  induction ts with
  | nil => simp
  | cons t ts ih =>
    rw [List.forall_mem_cons, ← ih]
    simp only [List.forM_eq_forM, List.forM_cons, Except.bind_eq_ok]
    constructor
    · rintro ⟨_, first, rest⟩
      exact ⟨first, rest⟩
    · rintro ⟨first, rest⟩
      exact ⟨_, first, rest⟩

/-! ## Places in a list -/

/-- The first element with a property splits the list. -/
lemma Located.first?_eq_some {β : Type} {p : β → Bool} {xs : List β} {l : Located β}
    (found : Located.first? p xs = some l) :
    xs = l.before ++ l.it :: l.after ∧ p l.it = true := by
  induction xs generalizing l with
  | nil => simp [Located.first?] at found
  | cons x xs ih =>
    by_cases here : p x
    · obtain rfl : ⟨[], x, xs⟩ = l := by simpa [Located.first?, here] using found
      exact ⟨rfl, here⟩
    · obtain ⟨l, later, rfl⟩ : ∃ l', Located.first? p xs = some l'
          ∧ { l' with before := x :: l'.before } = l := by
        simpa [Located.first?, here] using found
      obtain ⟨split, holds⟩ := ih later
      exact ⟨congrArg (x :: ·) split, holds⟩

/-- Nothing is found if nothing fits. -/
lemma Located.first?_eq_none {β : Type} {p : β → Bool} {xs : List β} :
    Located.first? p xs = none ↔ ∀ x ∈ xs, p x = false := by
  induction xs with
  | nil => simp [Located.first?]
  | cons x xs ih => by_cases here : p x <;> simp [Located.first?, here, ih]

namespace Directory

variable {α : Type} [Entry α]

/-- The ids that are given out. -/
def ids (d : Directory α) : List UInt32 :=
  d.entries.map Entry.id

/-- All names and aliases, in the order of the entries. -/
def names (d : Directory α) : List String :=
  d.entries.flatMap fun x => (Entry.naming x).all

/-- No entry answers to a text. -/
def IsFree (d : Directory α) (t : String) : Prop :=
  ∀ x ∈ d.entries, t ∉ (Entry.naming x).all

instance (d : Directory α) (t : String) : Decidable (d.IsFree t) :=
  inferInstanceAs (Decidable (∀ x ∈ d.entries, t ∉ (Entry.naming x).all))

/-- Ids below the counter, and neither an id nor a name twice. -/
structure Unambiguous (d : Directory α) : Prop where
  ids_lt : ∀ x ∈ d.entries, Entry.id x < d.next
  ids_nodup : d.ids.Nodup
  names_nodup : d.names.Nodup

/-- What one change of a directory can do. `made` says what a new entry holds, and `inner` how an
entry can change inside. -/
inductive Step (made : α → Prop) (inner : α → α → Prop) : Directory α → Directory α → Prop where
  | same {d} :
    Step made inner d d
  | create {d x} :
    made x →
    Entry.id x = (if d.next = 0 then 1 else d.next) →
    (Entry.id x).toNat + 1 < UInt32.size →
    (∀ t ∈ (Entry.naming x).all, ValidName t ∧ d.IsFree t) →
    (Entry.naming x).all.Nodup →
    Step made inner d ⟨Entry.id x + 1, d.entries ++ [x]⟩
  | rename {next before x after n} :
    (∀ t ∈ n.all, t ∈ (Entry.naming x).all
      ∨ ValidName t ∧ IsFree ⟨next, before ++ x :: after⟩ t) →
    ((Entry.naming x).all.Nodup → n.all.Nodup) →
    Step made inner ⟨next, before ++ x :: after⟩ ⟨next, before ++ Entry.rename x n :: after⟩
  | delete {next before x after} :
    Step made inner ⟨next, before ++ x :: after⟩ ⟨next, before ++ after⟩
  | update {next before x y after} :
    inner x y →
    Entry.id y = Entry.id x →
    Entry.naming y = Entry.naming x →
    Step made inner ⟨next, before ++ x :: after⟩ ⟨next, before ++ y :: after⟩

/-! ## What the checks decide -/

/-- A required entry has a place in the directory and answers to the reference. -/
lemma require_eq_ok {scope : Scope} {d : Directory α} {t : String} {l : Located α}
    (found : d.require scope t = .ok l) :
    d.entries = l.before ++ l.it :: l.after ∧ t ∈ (Entry.naming l.it).all := by
  unfold require at found
  split at found
  case h_1 l' located =>
    obtain rfl := Except.ok.inj found
    obtain ⟨split, answers⟩ := Located.first?_eq_some located
    exact ⟨split, by simpa [Naming.answersTo] using answers⟩
  case h_2 => simp at found

/-- A text leads to nothing if it is free. -/
lemma find?_eq_none {d : Directory α} {t : String} : d.find? t = none ↔ d.IsFree t := by
  simp [find?, locate?, Located.first?_eq_none, IsFree, Naming.answersTo]

/-- A text passes as a new name if it is free. -/
lemma ensureFree_eq_ok {scope : Scope} {d : Directory α} {t : String} {u : Unit} :
    d.ensureFree scope t = .ok u ↔ d.IsFree t := by
  rw [← find?_eq_none, ensureFree]
  cases d.find? t <;> simp

/-- Texts pass as new names if all of them are free. -/
lemma ensureNew_eq_ok {scope : Scope} {d : Directory α} {ts : List String} {u : Unit} :
    d.ensureNew scope ts = .ok u ↔ ∀ t ∈ ts, d.IsFree t := by
  induction ts with
  | nil => simp [ensureNew]
  | cons t ts ih =>
    rw [List.forall_mem_cons, ← ih, ← find?_eq_none, ensureNew]
    cases d.find? t <;> simp

/-- Texts pass as not repeated if they are fresh. -/
lemma ensureUnrepeated_eq_ok {scope : Scope} {earlier ts : List String} {u : Unit} :
    ensureUnrepeated scope earlier ts = .ok u ↔ Fresh earlier ts := by
  induction ts generalizing earlier with
  | nil => simp [ensureUnrepeated, fresh_nil]
  | cons t ts ih =>
    by_cases taken : t ∈ earlier
    · simp [ensureUnrepeated, taken, fresh_cons]
    · simp only [ensureUnrepeated, List.contains_iff_mem, taken, if_false, ih, fresh_cons,
        not_false_eq_true, true_and]

omit [Entry α] in
/-- The next id is given out as long as there is one after it. -/
lemma allocate_eq_ok {scope : Scope} {d : Directory α} {id next : UInt32} :
    d.allocate scope = .ok (id, next)
      ↔ id = (if d.next = 0 then 1 else d.next) ∧ id.toNat + 1 < UInt32.size ∧ next = id + 1 := by
  unfold allocate
  simp only
  generalize (if d.next = 0 then (1 : UInt32) else d.next) = first
  split
  case isTrue fits =>
    simp only [Except.ok.injEq, Prod.mk.injEq]
    constructor
    · rintro ⟨rfl, rfl⟩
      exact ⟨rfl, fits, rfl⟩
    · rintro ⟨rfl, -, rfl⟩
      exact ⟨rfl, rfl⟩
  case isFalse full =>
    simp only [reduceCtorEq, false_iff]
    rintro ⟨rfl, fits, -⟩
    exact full fits

/-- The counter goes up, and stays within 32 bits. -/
lemma lt_of_fits {id : UInt32} (fits : id.toNat + 1 < UInt32.size) : id < id + 1 := by
  rw [UInt32.lt_iff_toNat_lt, UInt32.toNat_add]
  simp only [UInt32.size] at fits
  have one : (1 : UInt32).toNat = 1 := rfl
  omega

/-! ## The operations -/

variable {made : α → Prop} {inner : α → α → Prop} {scope : Scope} {d d' : Directory α}

/-- What creating an entry makes sure of, and what it gives. -/
lemma create_eq_ok {make : UInt32 → Naming → α} {n : Naming} :
    create scope make n d = .ok d'
      ↔ (∀ t ∈ n.all, ValidName t ∧ d.IsFree t) ∧ n.all.Nodup
        ∧ ∃ id, id = (if d.next = 0 then 1 else d.next) ∧ id.toNat + 1 < UInt32.size
          ∧ d' = ⟨id + 1, d.entries ++ [make id n]⟩ := by
  simp only [create, validateNaming, Except.bind_eq_ok, Except.mapError_eq_ok, validateName_eq_ok,
    forM_eq_ok, ensureNew_eq_ok, ensureUnrepeated_eq_ok, exists_const, Except.pure_eq_ok]
  rw [forall₂_and, Naming.all, List.forall_mem_cons (p := ValidName), ← fresh_nil_left, fresh_cons]
  constructor
  · rintro ⟨valid, free, unrepeated, ⟨id, next⟩, allocated, rfl⟩
    obtain ⟨isNext, fits, rfl⟩ := allocate_eq_ok.mp allocated
    exact ⟨⟨valid, free⟩, ⟨List.not_mem_nil, unrepeated⟩, id, isNext, fits, rfl⟩
  · rintro ⟨⟨valid, free⟩, ⟨-, unrepeated⟩, id, isNext, fits, rfl⟩
    exact ⟨valid, free, unrepeated, (id, id + 1), allocate_eq_ok.mpr ⟨isNext, fits, rfl⟩, rfl⟩

/-- Creating is a step. -/
lemma create_step {make : UInt32 → Naming → α} {n : Naming}
    (lawful : ∀ id, Entry.id (make id n) = id ∧ Entry.naming (make id n) = n ∧ made (make id n))
    (created : create scope make n d = .ok d') : Step made inner d d' := by
  obtain ⟨new, nodup, id, isNext, fits, rfl⟩ := create_eq_ok.mp created
  obtain ⟨idMade, namingMade, isMade⟩ := lawful id
  have step : Step made inner d ⟨Entry.id (make id n) + 1, d.entries ++ [make id n]⟩ := by
    refine .create isMade ?_ ?_ ?_ ?_
    · rw [idMade, isNext]
    · rwa [idMade]
    · rwa [namingMade]
    · rwa [namingMade]
  rwa [idMade] at step

/-- What renaming makes sure of, and what it gives. A name that was free is no alias, so nothing is
erased where it is not one. -/
lemma rename_eq_ok {reference t : String} :
    rename scope reference t d = .ok d' ↔ ∃ l, d.require scope reference = .ok l
      ∧ ((Entry.naming l.it).name = t ∧ d = d'
        ∨ (Entry.naming l.it).name ≠ t ∧ (t ∈ (Entry.naming l.it).aliases ∨ d.IsFree t)
          ∧ ⟨d.next, l.replace (Entry.rename l.it ⟨t, (Entry.naming l.it).aliases.erase t⟩)⟩
            = d') := by
  simp only [rename, Except.bind_eq_ok]
  refine exists_congr fun l => and_congr_right fun found => ?_
  by_cases same : (Entry.naming l.it).name = t
  · simp [same]
  by_cases old : t ∈ (Entry.naming l.it).aliases
  · simp [same, old]
  · have whole : (Entry.naming l.it).aliases.erase t = (Entry.naming l.it).aliases :=
      List.erase_of_not_mem old
    simp only [beq_iff_eq, same, if_false, List.contains_iff_mem, old, Except.bind_eq_ok,
      ensureFree_eq_ok, exists_const, Except.pure_eq_ok, whole, false_and, false_or, ne_eq,
      not_false_eq_true, true_and]

/-- An alias is added to an entry if its text is free. -/
lemma addAlias_eq_ok {reference t : String} :
    addAlias scope reference t d = .ok d' ↔ ∃ l, d.require scope reference = .ok l ∧ d.IsFree t
      ∧ ⟨d.next, l.replace (Entry.rename l.it
          ⟨(Entry.naming l.it).name, (Entry.naming l.it).aliases ++ [t]⟩)⟩ = d' := by
  simp only [addAlias, Except.bind_eq_ok, ensureFree_eq_ok, exists_const, Except.pure_eq_ok]

/-- An alias is removed from an entry that has it. -/
lemma removeAlias_eq_ok {reference t : String} :
    removeAlias scope reference t d = .ok d' ↔ ∃ l, d.require scope reference = .ok l
      ∧ t ∈ (Entry.naming l.it).aliases
      ∧ ⟨d.next, l.replace (Entry.rename l.it
          ⟨(Entry.naming l.it).name, (Entry.naming l.it).aliases.erase t⟩)⟩ = d' := by
  simp only [removeAlias, Except.bind_eq_ok]
  refine exists_congr fun l => and_congr_right fun found => ?_
  by_cases old : t ∈ (Entry.naming l.it).aliases <;> simp [old]

/-- An entry is deleted if it is there. -/
lemma delete_eq_ok {reference : String} :
    delete scope reference d = .ok d' ↔ ∃ l, d.require scope reference = .ok l
      ∧ ⟨d.next, l.remove⟩ = d' := by
  simp only [delete, Except.bind_eq_ok, Except.pure_eq_ok]

/-- An entry is updated if it is there and its change is allowed. -/
lemma update_eq_ok {reference : String} {change : α → Except Rejection α} :
    update scope reference change d = .ok d' ↔ ∃ l, d.require scope reference = .ok l
      ∧ ∃ y, change l.it = .ok y ∧ ⟨d.next, l.replace y⟩ = d' := by
  simp only [update, Except.bind_eq_ok, Except.pure_eq_ok]

/-- Renaming is a step. -/
lemma rename_step {reference t : String} (valid : ValidName t)
    (renamed : rename scope reference t d = .ok d') : Step made inner d d' := by
  obtain ⟨⟨before, x, after⟩, found, ⟨-, rfl⟩ | ⟨-, origin, rfl⟩⟩ := rename_eq_ok.mp renamed
  · exact .same
  obtain ⟨next, entries⟩ := d
  obtain ⟨rfl, -⟩ := require_eq_ok found
  refine .rename (fun s mem => ?_) fun nodup => ?_
  · rcases List.mem_cons.mp mem with rfl | mem
    · exact origin.imp (List.mem_cons_of_mem _) fun free => ⟨valid, free⟩
    · exact .inl (List.mem_cons_of_mem _ (List.mem_of_mem_erase mem))
  · have aliases := (List.nodup_cons.mp nodup).2
    exact List.nodup_cons.mpr ⟨List.Nodup.not_mem_erase aliases, aliases.erase t⟩

/-- Adding an alias is a step. -/
lemma addAlias_step {reference t : String} (valid : ValidName t)
    (added : addAlias scope reference t d = .ok d') : Step made inner d d' := by
  obtain ⟨⟨before, x, after⟩, found, free, rfl⟩ := addAlias_eq_ok.mp added
  obtain ⟨next, entries⟩ := d
  obtain ⟨rfl, -⟩ := require_eq_ok found
  refine .rename (fun s mem => ?_) fun nodup => ?_
  · rw [Naming.all, ← List.cons_append, List.mem_append, List.mem_singleton] at mem
    rcases mem with mem | rfl
    · exact .inl mem
    · exact .inr ⟨valid, free⟩
  · rw [Naming.all, ← List.cons_append]
    exact List.nodup_append.mpr ⟨nodup, by simp, fun s mem u last => by
      rintro rfl
      exact free x (by simp) (List.mem_singleton.mp last ▸ mem)⟩

/-- Removing an alias is a step. -/
lemma removeAlias_step {reference t : String}
    (removed : removeAlias scope reference t d = .ok d') : Step made inner d d' := by
  obtain ⟨⟨before, x, after⟩, found, -, rfl⟩ := removeAlias_eq_ok.mp removed
  obtain ⟨next, entries⟩ := d
  obtain ⟨rfl, -⟩ := require_eq_ok found
  have fewer : List.Sublist ((Entry.naming x).name :: (Entry.naming x).aliases.erase t)
      (Entry.naming x).all := List.erase_sublist.cons_cons _
  exact .rename (fun s mem => .inl (fewer.subset mem)) fun nodup => nodup.sublist fewer

/-- Deleting is a step. -/
lemma delete_step {reference : String} (deleted : delete scope reference d = .ok d') :
    Step made inner d d' := by
  obtain ⟨⟨before, x, after⟩, found, rfl⟩ := delete_eq_ok.mp deleted
  obtain ⟨next, entries⟩ := d
  obtain ⟨rfl, -⟩ := require_eq_ok found
  exact .delete

/-- Updating an entry is a step if the change keeps its id and its names. -/
lemma update_step {reference : String} {change : α → Except Rejection α}
    (lawful : ∀ x y, change x = .ok y →
      inner x y ∧ Entry.id y = Entry.id x ∧ Entry.naming y = Entry.naming x)
    (updated : update scope reference change d = .ok d') : Step made inner d d' := by
  obtain ⟨⟨before, x, after⟩, found, y, changed, rfl⟩ := update_eq_ok.mp updated
  obtain ⟨next, entries⟩ := d
  obtain ⟨rfl, -⟩ := require_eq_ok found
  obtain ⟨inside, id, naming⟩ := lawful x y changed
  exact .update inside id naming

/-! ## The check of a directory -/

/-- Names are claimed if they are fresh. -/
lemma claimNames_eq_ok {seen ts seen' : List String} :
    claimNames scope seen ts = .ok seen' ↔ Fresh seen ts ∧ ts.reverse ++ seen = seen' := by
  induction ts generalizing seen with
  | nil => simp [claimNames, fresh_nil]
  | cons t ts ih =>
    by_cases taken : t ∈ seen
    · simp [claimNames, taken, fresh_cons]
    · simp only [claimNames, List.contains_iff_mem, taken, if_false, ih, fresh_cons,
        not_false_eq_true, true_and, List.reverse_cons, List.append_assoc, List.singleton_append]

/-- Entries pass if their ids were given out, nothing is repeated and what is inside passes. -/
lemma checkEntries_eq_ok {next : UInt32} {inside : α → Except Violation Unit} {ids : List UInt32}
    {seen : List String} {xs : List α} {u : Unit} :
    checkEntries scope next inside ids seen xs = .ok u
      ↔ (∀ x ∈ xs, Entry.id x < next ∧ inside x = .ok ()) ∧ Fresh ids (xs.map Entry.id)
        ∧ Fresh seen (xs.flatMap fun x => (Entry.naming x).all) := by
  induction xs generalizing ids seen with
  | nil => simp [checkEntries, fresh_nil]
  | cons x xs ih =>
    rw [List.flatMap_cons, fresh_append, List.map_cons, fresh_cons, List.forall_mem_cons,
      checkEntries]
    -- the id is checked before the names, so nothing else is looked at where it is refused
    by_cases sound : Entry.id x < next ∧ Entry.id x ∉ ids
    · obtain ⟨lt, new⟩ := sound
      have passes : ¬ (decide (next ≤ Entry.id x) || ids.contains (Entry.id x)) = true := by
        simp [lt, new]
      simp only [if_neg passes, Except.bind_eq_ok, claimNames_eq_ok, ih]
      constructor
      · rintro ⟨_, ⟨names, rfl⟩, ⟨⟩, inside, each, idsRest, namesRest⟩
        exact ⟨⟨⟨lt, inside⟩, each⟩, ⟨new, idsRest⟩, names, namesRest⟩
      · rintro ⟨⟨⟨-, inside⟩, each⟩, ⟨-, idsRest⟩, names, namesRest⟩
        exact ⟨_, ⟨names, rfl⟩, (), inside, each, idsRest, namesRest⟩
    · have refused : (decide (next ≤ Entry.id x) || ids.contains (Entry.id x)) = true := by
        by_cases lt : Entry.id x < next
        · have taken : Entry.id x ∈ ids := by_contra fun new => sound ⟨lt, new⟩
          simp [taken]
        · simp [UInt32.not_lt.mp lt]
      simp only [if_pos refused, Except.bind_eq_ok, Except.throw_ne_ok, false_and, exists_false,
        false_iff]
      rintro ⟨⟨⟨lt, -⟩, -⟩, ⟨new, -⟩, -⟩
      exact sound ⟨lt, new⟩

/-- A directory passes if it is unambiguous and what is inside its entries passes. -/
lemma check_eq_ok {inside : α → Except Violation Unit} {u : Unit} :
    d.check scope inside = .ok u ↔ d.Unambiguous ∧ ∀ x ∈ d.entries, inside x = .ok () := by
  rw [check, checkEntries_eq_ok, fresh_nil_left, fresh_nil_left]
  constructor
  · rintro ⟨each, ids, names⟩
    exact ⟨⟨fun x mem => (each x mem).1, ids, names⟩, fun x mem => (each x mem).2⟩
  · rintro ⟨⟨lt, ids, names⟩, inside⟩
    exact ⟨fun x mem => ⟨lt x mem, inside x mem⟩, ids, names⟩

/-! ## What every step keeps -/

/-- An entry of an unambiguous directory is known by its id. -/
lemma Unambiguous.eq_of_id (unambiguous : d.Unambiguous) {x y : α} (hx : x ∈ d.entries)
    (hy : y ∈ d.entries) (eq : Entry.id x = Entry.id y) : x = y :=
  List.inj_on_of_nodup_map unambiguous.ids_nodup hx hy eq

/-- The first id is one. -/
lemma toNat_of_isNext {next id : UInt32} (isNext : id = if next = 0 then 1 else next) :
    id.toNat = max 1 next.toNat := by
  rw [isNext]
  split
  case isTrue zero => simp [zero]
  case isFalse pos =>
    have ne : next.toNat ≠ 0 := fun eq => pos (UInt32.toNat_inj.mp eq)
    omega

/-- The id of a new entry is no id below the counter, and not zero. -/
lemma le_of_isNext {next id : UInt32} (isNext : id = if next = 0 then 1 else next) :
    next ≤ id ∧ 1 ≤ id := by
  have one : (1 : UInt32).toNat = 1 := rfl
  rw [UInt32.le_iff_toNat_le, UInt32.le_iff_toNat_le, toNat_of_isNext isNext]
  omega

/-- A new entry has an id above all others. -/
lemma Unambiguous.lt_of_isNext (unambiguous : d.Unambiguous) {id : UInt32}
    (isNext : id = if d.next = 0 then 1 else d.next) : ∀ x ∈ d.entries, Entry.id x < id := by
  intro x mem
  have lt := unambiguous.ids_lt x mem
  have le := (le_of_isNext isNext).1
  rw [UInt32.lt_iff_toNat_lt] at lt ⊢
  rw [UInt32.le_iff_toNat_le] at le
  omega

/-- The names of a directory are those before an entry, its own and those after it. -/
lemma names_split {next : UInt32} {before after : List α} {x : α} :
    names ⟨next, before ++ x :: after⟩
      = (before.flatMap fun y => (Entry.naming y).all)
        ++ ((Entry.naming x).all ++ after.flatMap fun y => (Entry.naming y).all) := by
  simp [names]

/-- The ids of a directory are those before an entry, its own and those after it. -/
lemma ids_split {next : UInt32} {before after : List α} {x : α} :
    ids ⟨next, before ++ x :: after⟩
      = before.map Entry.id ++ Entry.id x :: after.map Entry.id := by
  simp [ids]

/-- Another naming leaves the names distinct where what it adds is free. -/
lemma names_nodup_rename {next : UInt32} {before after : List α} {x y : α}
    (origin : ∀ t ∈ (Entry.naming y).all, t ∈ (Entry.naming x).all
      ∨ IsFree ⟨next, before ++ x :: after⟩ t)
    (nodup : (Entry.naming x).all.Nodup → (Entry.naming y).all.Nodup)
    (old : (names ⟨next, before ++ x :: after⟩).Nodup) :
    (names ⟨next, before ++ y :: after⟩).Nodup := by
  rw [names_split] at old ⊢
  obtain ⟨front, middle, apart⟩ := List.nodup_append'.mp old
  obtain ⟨own, back, ownApart⟩ := List.nodup_append'.mp middle
  -- a name that the entry had is nowhere else as none comes twice, and a new one as it was free
  have elsewhere : ∀ t ∈ (Entry.naming y).all,
      t ∉ (before.flatMap fun z => (Entry.naming z).all)
        ∧ t ∉ after.flatMap fun z => (Entry.naming z).all := by
    intro t mem
    rcases origin t mem with kept | free
    · exact ⟨fun h => apart h (List.mem_append_left _ kept), fun h => ownApart kept h⟩
    · refine ⟨fun h => ?_, fun h => ?_⟩ <;> obtain ⟨z, zmem, tmem⟩ := List.mem_flatMap.mp h
      · exact free z (by simp [zmem]) tmem
      · exact free z (by simp [zmem]) tmem
  refine List.nodup_append'.mpr ⟨front, List.nodup_append'.mpr ⟨nodup own, back, ?_⟩, ?_⟩
  · exact fun t mem h => (elsewhere t mem).2 h
  · intro t mem h
    rcases List.mem_append.mp h with h | h
    · exact (elsewhere t h).1 mem
    · exact apart mem (List.mem_append_right _ h)

omit [Entry α] in
/-- What is left without an entry was there before. -/
lemma sublist_remove (before after : List α) (x : α) :
    List.Sublist (before ++ after) (before ++ x :: after) :=
  (List.sublist_cons_self x after).append_left before

omit [Entry α] in
/-- What is there after a replacement was there before, or is what was put there. -/
lemma mem_replace {before after : List α} {x y z : α} (mem : z ∈ before ++ y :: after) :
    z = y ∨ z ∈ before ++ x :: after := by
  rcases List.mem_append.mp mem with mem | mem
  · exact .inr (List.mem_append_left _ mem)
  · rcases List.mem_cons.mp mem with rfl | mem
    · exact .inl rfl
    · exact .inr (List.mem_append_right _ (List.mem_cons_of_mem _ mem))

/-- A directory stays unambiguous where one entry gives way to another with its id, whose names it
had or are free. -/
lemma Unambiguous.replace {next : UInt32} {before after : List α} {x y : α}
    (unambiguous : Unambiguous ⟨next, before ++ x :: after⟩) (id : Entry.id y = Entry.id x)
    (origin : ∀ t ∈ (Entry.naming y).all, t ∈ (Entry.naming x).all
      ∨ IsFree ⟨next, before ++ x :: after⟩ t)
    (nodup : (Entry.naming x).all.Nodup → (Entry.naming y).all.Nodup) :
    Unambiguous ⟨next, before ++ y :: after⟩ := by
  obtain ⟨lt, ids, names⟩ := unambiguous
  refine ⟨fun z mem => ?_, ?_, names_nodup_rename origin nodup names⟩
  · rcases mem_replace mem with rfl | mem
    · exact id ▸ lt x (by simp)
    · exact lt z mem
  · rw [ids_split] at ids ⊢
    rwa [id]

/-- A change leaves ids and names unambiguous. -/
lemma Step.unambiguous [LawfulEntry α] (step : Step made inner d d')
    (unambiguous : d.Unambiguous) : d'.Unambiguous := by
  obtain ⟨lt, ids, names⟩ := unambiguous
  cases step with
  | same => exact ⟨lt, ids, names⟩
  | @create _ x _ isNext fits new nodup =>
    -- the new id is above all others, and the counter above it
    have above := Unambiguous.lt_of_isNext ⟨lt, ids, names⟩ isNext
    refine ⟨fun y mem => ?_, ?_, ?_⟩
    · rcases List.mem_append.mp mem with mem | mem
      · exact UInt32.lt_trans (above y mem) (lt_of_fits fits)
      · rw [List.mem_singleton.mp mem]
        exact lt_of_fits fits
    · rw [Directory.ids, List.map_append]
      refine List.nodup_append'.mpr ⟨ids, by simp, fun i mem last => ?_⟩
      obtain ⟨y, ymem, rfl⟩ := List.mem_map.mp mem
      exact UInt32.ne_of_lt (above y ymem) (by simpa using last)
    · rw [Directory.names, List.flatMap_append, List.flatMap_singleton]
      refine List.nodup_append'.mpr ⟨names, nodup, fun t mem last => ?_⟩
      obtain ⟨y, ymem, tmem⟩ := List.mem_flatMap.mp mem
      exact (new t last).2 y ymem tmem
  | @rename next before x after n origin nodup =>
    refine Unambiguous.replace ⟨lt, ids, names⟩ (LawfulEntry.id_rename x n) (fun t mem => ?_) ?_
    · exact (origin t (by simpa using mem)).imp_right And.right
    · simpa using nodup
  | @delete next before x after =>
    have fewer := sublist_remove before after x
    refine ⟨fun y mem => lt y (fewer.subset mem), ids.sublist (fewer.map _), names.sublist ?_⟩
    rw [names_split, Directory.names, List.flatMap_append]
    exact (List.sublist_append_right _ _).append_left _
  | @update next before x y after _ id naming =>
    exact Unambiguous.replace ⟨lt, ids, names⟩ id (fun t mem => .inl (naming ▸ mem))
      (fun nodup => naming ▸ nodup)

/-- An empty directory is unambiguous. -/
lemma unambiguous_empty : (empty : Directory α).Unambiguous := by
  constructor <;> simp [empty, ids, names]

/-- What holds of all entries, of what is made, and of what comes of an entry that it holds of,
holds of all entries after a change. -/
lemma Step.forall_mem {P : α → Prop} (new : ∀ x, made x → P x)
    (rename : ∀ x n, P x → P (Entry.rename x n)) (change : ∀ x y, inner x y → P x → P y)
    (step : Step made inner d d') (old : ∀ x ∈ d.entries, P x) : ∀ x ∈ d'.entries, P x := by
  cases step with
  | same => exact old
  | @create _ x isMade _ _ _ _ =>
    intro y mem
    rcases List.mem_append.mp mem with mem | mem
    · exact old y mem
    · rw [List.mem_singleton.mp mem]
      exact new x isMade
  | @rename next before x after n _ _ =>
    intro y mem
    rcases mem_replace mem with rfl | mem
    · exact rename x n (old x (by simp))
    · exact old y mem
  | @delete next before x after =>
    exact fun y mem => old y ((sublist_remove before after x).subset mem)
  | @update next before x y after changed _ _ =>
    intro z mem
    rcases mem_replace mem with rfl | mem
    · exact change x z changed (old x (by simp))
    · exact old z mem

end Directory

end MetricRegistry.Catalog
