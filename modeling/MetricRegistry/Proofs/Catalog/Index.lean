import Mathlib.Data.List.Pairwise
import Mathlib.Logic.Function.Basic
import MetricRegistry.Proofs.Catalog.Directory

/-!
# The index of a directory

A directory keeps no index: it looks through its entries for one that answers to a name. `Index` is
what it would keep, the id that each name stands for, and for each id the name that is shown and
what is inside. `Directory.Refines` says of an operation that it succeeds where the index allows an
`Edit`, and that it does to the index what the edit does; the lemmas `create_refines`,
`rename_refines`, … say so of each. They rest on what becomes of the look-ups where one entry gives
way to another (`index_replace`), comes last (`index_append`) or goes (`index_remove`).
-/

namespace MetricRegistry.Catalog

/-! ## Indexes -/

/-- What names stand for, where each id holds something of type `γ`. -/
@[ext]
structure Index (γ : Type) where
  /-- The id that answers to a name. -/
  idOf : String → Option UInt32
  /-- The name by which an id is shown; its other names are aliases. -/
  shown : UInt32 → Option String
  /-- What an id holds. -/
  inside : UInt32 → Option γ
  /-- The counter of ids. -/
  next : UInt32

/-- A change of names, or of the ids that they stand for. -/
inductive Edit (γ : Type) where
  | create (n : Naming) (content : γ)
  | rename (reference newName : String)
  | addAlias (reference alternate : String)
  | removeAlias (reference alternate : String)
  | delete (reference : String)

/-- The names that an edit introduces. -/
def Edit.names {γ : Type} : Edit γ → List String
  | .create n _ => n.all
  | .rename _ newName => [newName]
  | .addAlias _ alternate => [alternate]
  | .removeAlias _ _ => []
  | .delete _ => []

namespace Index

variable {γ : Type}

/-- Nothing has a name. -/
def empty : Index γ :=
  ⟨fun _ => none, fun _ => none, fun _ => none, 1⟩

/-- The id that a new entry gets. Ids start at one. -/
def fresh (ix : Index γ) : UInt32 :=
  if ix.next = 0 then 1 else ix.next

/-- References resolve, and a name that comes in is free; a new name of an entry may also be one of
its own. What is removed is an alias, and the counter leaves room for another id. -/
def Fits (ix : Index γ) : Edit γ → Prop
  | .create n _ => (∀ t ∈ n.all, ix.idOf t = none) ∧ ix.next.toNat < UInt32.size - 1
  | .rename reference newName =>
    ∃ i, ix.idOf reference = some i ∧ (ix.idOf newName = none ∨ ix.idOf newName = some i)
  | .addAlias reference alternate =>
    (∃ i, ix.idOf reference = some i) ∧ ix.idOf alternate = none
  | .removeAlias reference alternate =>
    ∃ i, ix.idOf reference = some i ∧ ix.idOf alternate = some i ∧ ix.shown i ≠ some alternate
  | .delete reference => ∃ i, ix.idOf reference = some i

/-- An edit is possible: names that come in are valid and distinct, and it fits. -/
def Allows (ix : Index γ) (e : Edit γ) : Prop :=
  (∀ t ∈ e.names, ValidName t) ∧ e.names.Nodup ∧ ix.Fits e

/-- The index with one more entry. -/
def create (ix : Index γ) (n : Naming) (content : γ) : Index γ where
  idOf t := if t ∈ n.all then some ix.fresh else ix.idOf t
  shown := Function.update ix.shown ix.fresh (some n.name)
  inside := Function.update ix.inside ix.fresh (some content)
  next := ix.fresh + 1

/-- The index where an id has lost the name that was shown and has got another. -/
def rename (ix : Index γ) (i : UInt32) (newName : String) : Index γ where
  idOf t := if t = newName then some i else if ix.shown i = some t then none else ix.idOf t
  shown := Function.update ix.shown i (some newName)
  inside := ix.inside
  next := ix.next

/-- The index without an id and its names. -/
def delete (ix : Index γ) (i : UInt32) : Index γ where
  idOf t := if ix.idOf t = some i then none else ix.idOf t
  shown := Function.update ix.shown i none
  inside := Function.update ix.inside i none
  next := ix.next

/-- The index after a change at the id that a reference stands for. -/
def follow (ix : Index γ) (reference : String) (change : UInt32 → Index γ) : Index γ :=
  match ix.idOf reference with
  | some i => change i
  | none => ix

/-- An id that gets the name by which it is shown stays as it is. -/
lemma rename_self {ix : Index γ} {i : UInt32} {t : String} (shown : ix.shown i = some t)
    (answers : ix.idOf t = some i) : ix.rename i t = ix := by
  ext1
  · funext s
    by_cases same : s = t
    · simp [rename, same, answers]
    · simp [rename, same, shown, Ne.symm same]
  · simp only [rename, ← shown, Function.update_eq_self]
  · rfl
  · rfl

/-- The index after an edit. -/
def after (ix : Index γ) : Edit γ → Index γ
  | .create n content => ix.create n content
  | .rename reference newName => ix.follow reference fun i => ix.rename i newName
  | .addAlias reference alternate =>
    ix.follow reference fun i => { ix with idOf := Function.update ix.idOf alternate (some i) }
  | .removeAlias _ alternate => { ix with idOf := Function.update ix.idOf alternate none }
  | .delete reference => ix.follow reference ix.delete

/-- The index after a change inside the id that a reference stands for. -/
def within (ix : Index γ) (reference : String) (change : γ → γ) : Index γ :=
  ix.follow reference fun i =>
    { ix with inside := Function.update ix.inside i ((ix.inside i).map change) }

end Index

/-! ## The index of a directory -/

namespace Directory

variable {α γ : Type} [Entry α] {c : α → γ} {d d' : Directory α}

/-- The entry with an id. -/
def byId? (d : Directory α) (i : UInt32) : Option α :=
  d.entries.find? fun x => Entry.id x == i

/-- What a look-up by name or by id finds in a directory. -/
def index (c : α → γ) (d : Directory α) : Index γ where
  idOf t := (d.find? t).map Entry.id
  shown i := (d.byId? i).map fun x => (Entry.naming x).name
  inside i := (d.byId? i).map c
  next := d.next

/-- No name belongs to two entries. -/
lemma Unambiguous.eq_of_name (unambiguous : d.Unambiguous) {x y : α} {t : String}
    (hx : x ∈ d.entries) (hy : y ∈ d.entries) (own : t ∈ (Entry.naming x).all)
    (also : t ∈ (Entry.naming y).all) : x = y := by
  have apart := (List.nodup_flatMap.mp unambiguous.names_nodup).2
  have symm : Std.Symm (Function.onFun List.Disjoint fun x : α => (Entry.naming x).all) :=
    ⟨fun _ _ disjoint _ mem also => disjoint also mem⟩
  by_contra ne
  exact apart.forall hx hy ne own also

/-- In an unambiguous directory an entry is found by each of its names. -/
lemma Unambiguous.find?_eq_some (unambiguous : d.Unambiguous) {x : α} {t : String} :
    d.find? t = some x ↔ x ∈ d.entries ∧ t ∈ (Entry.naming x).all := by
  have sound : ∀ y, d.find? t = some y → y ∈ d.entries ∧ t ∈ (Entry.naming y).all := by
    intro y found
    obtain ⟨l, located, rfl⟩ := Option.map_eq_some_iff.mp found
    obtain ⟨split, answers⟩ := Located.first?_eq_some located
    exact ⟨by simp [split], by simpa [Naming.answersTo] using answers⟩
  refine ⟨sound x, ?_⟩
  rintro ⟨mem, own⟩
  cases found : d.find? t with
  | none => exact absurd own (find?_eq_none.mp found x mem)
  | some y =>
    obtain ⟨other, also⟩ := sound y found
    rw [unambiguous.eq_of_name other mem also own]

/-- In an unambiguous directory an entry is found by its id. -/
lemma Unambiguous.byId?_eq_some (unambiguous : d.Unambiguous) {x : α} {i : UInt32} :
    d.byId? i = some x ↔ x ∈ d.entries ∧ Entry.id x = i := by
  have sound : ∀ y, d.byId? i = some y → y ∈ d.entries ∧ Entry.id y = i := fun y found =>
    ⟨List.mem_of_find?_eq_some found, by simpa using List.find?_some found⟩
  refine ⟨sound x, ?_⟩
  rintro ⟨mem, rfl⟩
  cases found : d.byId? (Entry.id x) with
  | none => exact absurd (List.find?_eq_none.mp found x mem) (by simp)
  | some y =>
    obtain ⟨other, same⟩ := sound y found
    rw [unambiguous.eq_of_id other mem same]

section Index

variable {t : String} {i : UInt32} {x : α}

/-- A free text has no place in the index. -/
lemma idOf_eq_none : (d.index c).idOf t = none ↔ d.IsFree t := by
  rw [← find?_eq_none, index, Option.map_eq_none_iff]

/-- In an unambiguous directory each name has the id of its entry. -/
lemma Unambiguous.idOf_eq (unambiguous : d.Unambiguous) (mem : x ∈ d.entries)
    (own : t ∈ (Entry.naming x).all) : (d.index c).idOf t = some (Entry.id x) := by
  simp [index, unambiguous.find?_eq_some.mpr ⟨mem, own⟩]

/-- The names with the id of an entry are its own. -/
lemma Unambiguous.idOf_eq_iff (unambiguous : d.Unambiguous) (mem : x ∈ d.entries) :
    (d.index c).idOf t = some (Entry.id x) ↔ t ∈ (Entry.naming x).all := by
  refine ⟨fun answers => ?_, unambiguous.idOf_eq mem⟩
  obtain ⟨y, found, same⟩ := Option.map_eq_some_iff.mp answers
  obtain ⟨other, own⟩ := unambiguous.find?_eq_some.mp found
  rwa [← unambiguous.eq_of_id other mem same]

/-- An entry is found by its own id. -/
lemma Unambiguous.byId?_eq (unambiguous : d.Unambiguous) (mem : x ∈ d.entries) :
    d.byId? (Entry.id x) = some x :=
  unambiguous.byId?_eq_some.mpr ⟨mem, rfl⟩

/-- The index shows an entry under its name. -/
lemma Unambiguous.shown_eq (unambiguous : d.Unambiguous) (mem : x ∈ d.entries) :
    (d.index c).shown (Entry.id x) = some (Entry.naming x).name := by
  simp [index, unambiguous.byId?_eq mem]

/-- The index has what is inside an entry under its id. -/
lemma Unambiguous.inside_eq (unambiguous : d.Unambiguous) (mem : x ∈ d.entries) :
    (d.index c).inside (Entry.id x) = some (c x) := by
  simp [index, unambiguous.byId?_eq mem]

/-- Where one entry differs, the index shows the same names but for it. -/
lemma shown_of_byId? {o : Option α} (byId : d'.byId? = Function.update d.byId? i o) :
    (d'.index c).shown
      = Function.update (d.index c).shown i (o.map fun x => (Entry.naming x).name) := by
  funext j
  by_cases here : j = i <;> simp [index, byId, here]

/-- Where one entry differs, the index has the same inside but for it. -/
lemma inside_of_byId? {o : Option α} (byId : d'.byId? = Function.update d.byId? i o) :
    (d'.index c).inside = Function.update (d.index c).inside i (o.map c) := by
  funext j
  by_cases here : j = i <;> simp [index, byId, here]

/-! ### One entry in the place of another -/

variable {next : UInt32} {before after : List α} {y z : α}

omit [Entry α] in
/-- What stands around an entry stands before it or after it. -/
lemma mem_split : z ∈ before ++ y :: after ↔ z = y ∨ z ∈ before ++ after := by
  rw [List.mem_append, List.mem_cons, List.mem_append, or_left_comm]

/-- What stands around an entry has another id. -/
lemma Unambiguous.id_ne_of_mem (unambiguous : Unambiguous ⟨next, before ++ x :: after⟩)
    (mem : z ∈ before ++ after) : Entry.id z ≠ Entry.id x := by
  have nodup := unambiguous.ids_nodup
  rw [ids_split] at nodup
  have apart : Entry.id x ∉ before.map Entry.id ++ after.map Entry.id :=
    (List.nodup_middle.mp nodup).notMem
  intro same
  rw [← List.map_append, ← same] at apart
  exact apart (List.mem_map_of_mem mem)

/-- The entries around one have none of its names. -/
lemma Unambiguous.notMem_of_mem (unambiguous : Unambiguous ⟨next, before ++ x :: after⟩)
    (mem : z ∈ before ++ after) (own : t ∈ (Entry.naming x).all) :
    t ∉ (Entry.naming z).all := by
  intro also
  obtain rfl :=
    unambiguous.eq_of_name (mem_split.mpr (.inr mem)) (mem_split.mpr (.inl rfl)) also own
  exact unambiguous.id_ne_of_mem mem rfl

/-- After a replacement the new entry is found by its id, and all others as before. -/
lemma byId?_replace (unambiguous : Unambiguous ⟨next, before ++ y :: after⟩)
    (same : Entry.id y = Entry.id x) :
    byId? ⟨next, before ++ y :: after⟩
      = Function.update (byId? ⟨next, before ++ x :: after⟩) (Entry.id x) (some y) := by
  funext i
  by_cases here : i = Entry.id x
  · rw [here, Function.update_self, ← same]
    exact unambiguous.byId?_eq (mem_split.mpr (.inl rfl))
  · have skip : (Entry.id x == i) = false := by simpa using fun eq => here eq.symm
    rw [Function.update_of_ne here]
    simp [byId?, List.find?_append, same, skip]

/-- After a replacement the names of the new entry lead to it, and dropped ones to nothing. -/
lemma find?_replace (unambiguous : Unambiguous ⟨next, before ++ x :: after⟩)
    (unambiguous' : Unambiguous ⟨next, before ++ y :: after⟩) :
    find? ⟨next, before ++ y :: after⟩ t
      = if t ∈ (Entry.naming y).all then some y
        else if t ∈ (Entry.naming x).all then none
        else find? ⟨next, before ++ x :: after⟩ t := by
  split
  case isTrue own => exact unambiguous'.find?_eq_some.mpr ⟨mem_split.mpr (.inl rfl), own⟩
  case isFalse notNew =>
  split
  case isTrue old =>
    rw [find?_eq_none]
    intro z mem
    rcases mem_split.mp mem with rfl | mem
    · exact notNew
    · exact unambiguous.notMem_of_mem mem old
  case isFalse notOld =>
    -- any other name belongs to one of the entries around, which are the same in both
    refine Option.ext fun z => ?_
    rw [unambiguous.find?_eq_some, unambiguous'.find?_eq_some, mem_split, mem_split]
    constructor
    · rintro ⟨rfl | mem, own⟩
      · exact absurd own notNew
      · exact ⟨.inr mem, own⟩
    · rintro ⟨rfl | mem, own⟩
      · exact absurd own notOld
      · exact ⟨.inr mem, own⟩

/-- The index where an entry has given way to another with its id. -/
lemma index_replace (unambiguous : Unambiguous ⟨next, before ++ x :: after⟩)
    (unambiguous' : Unambiguous ⟨next, before ++ y :: after⟩) (same : Entry.id y = Entry.id x) :
    index c ⟨next, before ++ y :: after⟩ =
      let ix := index c ⟨next, before ++ x :: after⟩
      { idOf := fun t =>
          if t ∈ (Entry.naming y).all then some (Entry.id x)
          else if t ∈ (Entry.naming x).all then none else ix.idOf t
        shown := Function.update ix.shown (Entry.id x) (some (Entry.naming y).name)
        inside := Function.update ix.inside (Entry.id x) (some (c y))
        next := next } := by
  ext1
  · funext t
    simp only [index, find?_replace unambiguous unambiguous']
    split
    · exact congrArg some same
    · split <;> rfl
  · exact shown_of_byId? (byId?_replace unambiguous' same)
  · exact inside_of_byId? (byId?_replace unambiguous' same)
  · rfl

/-- The index where an entry is called something else. -/
lemma index_rename [LawfulEntry α] (keeps : ∀ (x : α) (n : Naming), c (Entry.rename x n) = c x)
    {n : Naming} (unambiguous : Unambiguous ⟨next, before ++ x :: after⟩)
    (unambiguous' : Unambiguous ⟨next, before ++ Entry.rename x n :: after⟩) :
    index c ⟨next, before ++ Entry.rename x n :: after⟩ =
      let ix := index c ⟨next, before ++ x :: after⟩
      { ix with
        idOf := fun t =>
          if t ∈ n.all then some (Entry.id x)
          else if t ∈ (Entry.naming x).all then none else ix.idOf t
        shown := Function.update ix.shown (Entry.id x) (some n.name) } := by
  have inside := unambiguous.inside_eq (c := c) (mem_split.mpr (.inl rfl))
  rw [index_replace unambiguous unambiguous' (LawfulEntry.id_rename x n)]
  simp only [LawfulEntry.naming_rename, keeps, ← inside, Function.update_eq_self]
  rfl

/-- The index where an entry has changed inside. -/
lemma index_update (unambiguous : Unambiguous ⟨next, before ++ x :: after⟩)
    (unambiguous' : Unambiguous ⟨next, before ++ y :: after⟩) (same : Entry.id y = Entry.id x)
    (names : Entry.naming y = Entry.naming x) :
    index c ⟨next, before ++ y :: after⟩ =
      let ix := index c ⟨next, before ++ x :: after⟩
      { ix with inside := Function.update ix.inside (Entry.id x) (some (c y)) } := by
  have mem : x ∈ before ++ x :: after := mem_split.mpr (.inl rfl)
  rw [index_replace unambiguous unambiguous' same]
  ext1
  · funext t
    simp only [names]
    split
    · exact (unambiguous.idOf_eq mem ‹_›).symm
    · rfl
  · simp [names, ← unambiguous.shown_eq (c := c) mem]
  · rfl
  · rfl

/-! ### One entry more or less -/

/-- An entry that is appended is in the index under its names, and all others are as before. -/
lemma index_append (unambiguous : d.Unambiguous)
    (unambiguous' : Unambiguous ⟨next, d.entries ++ [x]⟩) :
    index c ⟨next, d.entries ++ [x]⟩ =
      { idOf := fun t =>
          if t ∈ (Entry.naming x).all then some (Entry.id x) else (d.index c).idOf t
        shown := Function.update (d.index c).shown (Entry.id x) (some (Entry.naming x).name)
        inside := Function.update (d.index c).inside (Entry.id x) (some (c x))
        next := next } := by
  have byId : byId? ⟨next, d.entries ++ [x]⟩ = Function.update d.byId? (Entry.id x) (some x) := by
    funext i
    by_cases here : i = Entry.id x
    · rw [here, Function.update_self]
      exact unambiguous'.byId?_eq (mem_split.mpr (.inl rfl))
    · have skip : (Entry.id x == i) = false := by simpa using fun eq => here eq.symm
      rw [Function.update_of_ne here]
      simp [byId?, List.find?_append, skip]
  have byName : ∀ t, find? ⟨next, d.entries ++ [x]⟩ t
      = if t ∈ (Entry.naming x).all then some x else d.find? t := by
    intro t
    split
    case isTrue own => exact unambiguous'.find?_eq_some.mpr ⟨mem_split.mpr (.inl rfl), own⟩
    case isFalse notOwn =>
      refine Option.ext fun z => ?_
      rw [unambiguous.find?_eq_some, unambiguous'.find?_eq_some, mem_split, List.append_nil]
      constructor
      · rintro ⟨rfl | mem, own⟩
        · exact absurd own notOwn
        · exact ⟨mem, own⟩
      · exact And.imp_left .inr
  ext1
  · funext t
    simp only [index, byName]
    split <;> rfl
  · exact shown_of_byId? byId
  · exact inside_of_byId? byId
  · rfl

/-- An entry that is removed is deleted from the index. -/
lemma index_remove (unambiguous : Unambiguous ⟨next, before ++ x :: after⟩)
    (unambiguous' : Unambiguous ⟨next, before ++ after⟩) :
    index c ⟨next, before ++ after⟩
      = (index c ⟨next, before ++ x :: after⟩).delete (Entry.id x) := by
  have byId : byId? ⟨next, before ++ after⟩
      = Function.update (byId? ⟨next, before ++ x :: after⟩) (Entry.id x) none := by
    funext i
    by_cases here : i = Entry.id x
    · rw [here, Function.update_self, byId?, List.find?_eq_none]
      exact fun z mem => by simpa using unambiguous.id_ne_of_mem mem
    · have skip : (Entry.id x == i) = false := by simpa using fun eq => here eq.symm
      rw [Function.update_of_ne here]
      simp [byId?, List.find?_append, skip]
  ext1
  · funext t
    simp only [Index.delete, unambiguous.idOf_eq_iff (mem_split.mpr (.inl rfl))]
    split
    case isTrue own =>
      exact idOf_eq_none.mpr fun z mem => unambiguous.notMem_of_mem mem own
    case isFalse notOwn =>
      refine congrArg (Option.map Entry.id) (Option.ext fun z => ?_)
      rw [unambiguous.find?_eq_some, unambiguous'.find?_eq_some, mem_split]
      constructor
      · exact And.imp_left .inr
      · rintro ⟨rfl | mem, own⟩
        · exact absurd own notOwn
        · exact ⟨mem, own⟩
  · exact shown_of_byId? byId
  · exact inside_of_byId? byId
  · rfl

end Index

/-! ## What the operations do to it -/

/-- An operation with a result `r` succeeds where the index allows an edit, and does the same. -/
def Refines (c : α → γ) (d : Directory α) (e : Edit γ) (r : Except Rejection (Directory α)) :
    Prop :=
  ((∃ d', r = .ok d') ↔ (d.index c).Allows e)
    ∧ ∀ d', r = .ok d' → d'.index c = (d.index c).after e

/-- The entry that a reference resolves to is that with the id which it stands for. -/
lemma Unambiguous.resolves (unambiguous : d.Unambiguous) {scope : Scope} {reference : String}
    {i : UInt32} :
    (d.index c).idOf reference = some i
      ↔ ∃ l, d.require scope reference = .ok l ∧ Entry.id l.it = i := by
  constructor
  · intro answers
    obtain ⟨x, found, rfl⟩ := Option.map_eq_some_iff.mp answers
    obtain ⟨l, located, rfl⟩ := Option.map_eq_some_iff.mp found
    exact ⟨l, by simp [require, located], rfl⟩
  · rintro ⟨l, found, rfl⟩
    obtain ⟨split, own⟩ := require_eq_ok found
    exact unambiguous.idOf_eq (by simp [split]) own

/-- The names of an entry are different. -/
lemma Unambiguous.nodup_all (unambiguous : d.Unambiguous) {x : α} (mem : x ∈ d.entries) :
    (Entry.naming x).all.Nodup :=
  (List.nodup_flatMap.mp unambiguous.names_nodup).1 x mem

/-- A step keeps a directory unambiguous. -/
lemma Unambiguous.after [LawfulEntry α] (unambiguous : d.Unambiguous)
    (step : Step (fun _ => True) (fun _ _ => True) d d') : d'.Unambiguous :=
  step.unambiguous unambiguous

section Refines

variable {scope : Scope} {n : Naming} {reference t : String} {l : Located α}

/-- A change at the id of a reference is one at the entry that it resolves to. -/
lemma Unambiguous.follow_eq (unambiguous : d.Unambiguous)
    (found : d.require scope reference = .ok l) (change : UInt32 → Index γ) :
    (d.index c).follow reference change = change (Entry.id l.it) := by
  simp only [Index.follow, unambiguous.resolves.mpr ⟨l, found, rfl⟩]

/-- The names with the id of an entry that is required are its own. -/
lemma Unambiguous.idOf_located (unambiguous : d.Unambiguous)
    (found : d.require scope reference = .ok l) :
    (d.index c).idOf t = some (Entry.id l.it) ↔ t ∈ (Entry.naming l.it).all := by
  obtain ⟨split, -⟩ := require_eq_ok found
  exact unambiguous.idOf_eq_iff (by simp [split])

/-- Creating an entry refines what it does to the index. -/
lemma create_refines [LawfulEntry α] {make : UInt32 → Naming → α} {g : γ}
    (lawful : ∀ id, Entry.id (make id n) = id ∧ Entry.naming (make id n) = n
      ∧ c (make id n) = g) (unambiguous : d.Unambiguous) :
    Refines c d (.create n g) (create scope make n d) := by
  -- the counter leaves room for an id where the one after it is within bounds
  have room : (if d.next = 0 then 1 else d.next).toNat + 1 < UInt32.size
      ↔ d.next.toNat < UInt32.size - 1 := by
    rw [toNat_of_isNext rfl]
    have size : UInt32.size = 4294967296 := rfl
    omega
  refine ⟨?_, fun d' created => ?_⟩
  · simp only [create_eq_ok, Index.Allows, Index.Fits, Edit.names, idOf_eq_none, forall₂_and]
    constructor
    · rintro ⟨_, ⟨valid, free⟩, nodup, _, rfl, fits, -⟩
      exact ⟨valid, nodup, free, room.mp fits⟩
    · rintro ⟨valid, nodup, free, fits⟩
      exact ⟨_, ⟨valid, free⟩, nodup, _, rfl, room.mpr fits, rfl⟩
  · have unambiguous' := unambiguous.after
      (create_step (fun id => ⟨(lawful id).1, (lawful id).2.1, trivial⟩) created)
    obtain ⟨-, -, id, isNext, -, rfl⟩ := create_eq_ok.mp created
    obtain ⟨idMade, namingMade, insideMade⟩ := lawful id
    rw [index_append unambiguous unambiguous', idMade, namingMade, insideMade, isNext]
    rfl

/-- The index where an entry has got a new name, and has lost it as an alias if it was one. -/
lemma index_rename_name [LawfulEntry α] {next : UInt32} {before after : List α} {x : α}
    (keeps : ∀ (x : α) (n : Naming), c (Entry.rename x n) = c x)
    (unambiguous : Unambiguous ⟨next, before ++ x :: after⟩)
    (unambiguous' : Unambiguous
      ⟨next, before ++ Entry.rename x ⟨t, (Entry.naming x).aliases.erase t⟩ :: after⟩) :
    index c ⟨next, before ++ Entry.rename x ⟨t, (Entry.naming x).aliases.erase t⟩ :: after⟩
      = (index c ⟨next, before ++ x :: after⟩).rename (Entry.id x) t := by
  have mem : x ∈ before ++ x :: after := mem_split.mpr (.inl rfl)
  have shown := unambiguous.shown_eq (c := c) mem
  obtain ⟨notAlias, -⟩ := List.nodup_cons.mp (unambiguous.nodup_all mem)
  rw [index_rename keeps unambiguous unambiguous']
  ext1
  · funext s
    simp only [Index.rename, shown, Option.some.injEq, Naming.all, List.mem_cons]
    by_cases new : s = t
    · simp [new]
    -- any other name than the new one is left if it is an alias
    simp only [List.mem_erase_of_ne new]
    by_cases old : s ∈ (Entry.naming x).aliases
    · have ne : (Entry.naming x).name ≠ s := fun eq => notAlias (eq ▸ old)
      have answers := unambiguous.idOf_eq (c := c) mem (List.mem_cons_of_mem _ old)
      simp [new, old, ne, answers]
    · simp [new, old, eq_comm]
  · rfl
  · rfl
  · rfl

/-- Renaming an entry refines what it does to the index. -/
lemma rename_refines [LawfulEntry α]
    (keeps : ∀ (x : α) (n : Naming), c (Entry.rename x n) = c x) (valid : ValidName t)
    (unambiguous : d.Unambiguous) :
    Refines c d (.rename reference t) (rename scope reference t d) := by
  refine ⟨?_, fun d' renamed => ?_⟩
  · simp only [rename_eq_ok, Index.Allows, Index.Fits, Edit.names, List.mem_singleton, forall_eq,
      valid, List.nodup_singleton, true_and]
    constructor
    · rintro ⟨_, l, found, ⟨own, rfl⟩ | ⟨-, own | free, -⟩⟩
      · exact ⟨_, unambiguous.resolves.mpr ⟨l, found, rfl⟩,
          .inr ((unambiguous.idOf_located found).mpr (own ▸ List.mem_cons_self))⟩
      · exact ⟨_, unambiguous.resolves.mpr ⟨l, found, rfl⟩,
          .inr ((unambiguous.idOf_located found).mpr (List.mem_cons_of_mem _ own))⟩
      · exact ⟨_, unambiguous.resolves.mpr ⟨l, found, rfl⟩, .inl (idOf_eq_none.mpr free)⟩
    · rintro ⟨i, answers, fits⟩
      obtain ⟨l, found, rfl⟩ := unambiguous.resolves.mp answers
      rw [idOf_eq_none, unambiguous.idOf_located found, Naming.all, List.mem_cons] at fits
      by_cases same : (Entry.naming l.it).name = t
      · exact ⟨d, l, found, .inl ⟨same, rfl⟩⟩
      · refine ⟨_, l, found, .inr ⟨same, ?_, rfl⟩⟩
        exact fits.symm.imp_left fun own => own.resolve_left (Ne.symm same)
  · have unambiguous' := unambiguous.after (rename_step valid renamed)
    obtain ⟨l, found, cases⟩ := rename_eq_ok.mp renamed
    rw [Index.after, unambiguous.follow_eq found]
    obtain ⟨split, -⟩ := require_eq_ok found
    rcases cases with ⟨own, rfl⟩ | ⟨-, -, rfl⟩
    -- where the name was its own already, the edit changes nothing either
    · have shown := unambiguous.shown_eq (c := c) (x := l.it) (by simp [split])
      rw [own] at shown
      refine (Index.rename_self shown ?_).symm
      exact (unambiguous.idOf_located found).mpr (own ▸ List.mem_cons_self)
    · obtain ⟨next, entries⟩ := d
      obtain rfl : entries = l.before ++ l.it :: l.after := split
      exact index_rename_name keeps unambiguous unambiguous'

/-- Adding an alias refines what it does to the index. -/
lemma addAlias_refines [LawfulEntry α]
    (keeps : ∀ (x : α) (n : Naming), c (Entry.rename x n) = c x) (valid : ValidName t)
    (unambiguous : d.Unambiguous) :
    Refines c d (.addAlias reference t) (addAlias scope reference t d) := by
  refine ⟨?_, fun d' added => ?_⟩
  · simp only [addAlias_eq_ok, Index.Allows, Index.Fits, Edit.names, List.mem_singleton, forall_eq,
      valid, List.nodup_singleton, true_and, idOf_eq_none]
    constructor
    · rintro ⟨_, l, found, free, -⟩
      exact ⟨⟨_, unambiguous.resolves.mpr ⟨l, found, rfl⟩⟩, free⟩
    · rintro ⟨⟨_, answers⟩, free⟩
      obtain ⟨l, found, -⟩ := unambiguous.resolves.mp answers
      exact ⟨_, l, found, free, rfl⟩
  · have unambiguous' := unambiguous.after (addAlias_step valid added)
    obtain ⟨⟨before, x, after⟩, found, free, rfl⟩ := addAlias_eq_ok.mp added
    rw [Index.after, unambiguous.follow_eq found]
    obtain ⟨next, entries⟩ := d
    obtain ⟨rfl, -⟩ := require_eq_ok found
    have mem : x ∈ before ++ x :: after := mem_split.mpr (.inl rfl)
    rw [Located.replace, index_rename keeps unambiguous unambiguous']
    ext1
    · funext s
      by_cases new : s = t
      · simp [new, Naming.all]
      · have same : s ∈ Naming.all ⟨(Entry.naming x).name, (Entry.naming x).aliases ++ [t]⟩
            ↔ s ∈ (Entry.naming x).all := by
          simp [Naming.all, new]
        simp only [same, Function.update_of_ne new]
        split
        · exact (unambiguous.idOf_eq mem ‹_›).symm
        · rfl
    · simp [← unambiguous.shown_eq (c := c) mem]
    · rfl
    · rfl

/-- Removing an alias refines what it does to the index. -/
lemma removeAlias_refines [LawfulEntry α]
    (keeps : ∀ (x : α) (n : Naming), c (Entry.rename x n) = c x) (unambiguous : d.Unambiguous) :
    Refines c d (.removeAlias reference t) (removeAlias scope reference t d) := by
  refine ⟨?_, fun d' removed => ?_⟩
  · simp only [removeAlias_eq_ok, Index.Allows, Index.Fits, Edit.names, List.not_mem_nil,
      false_imp_iff, implies_true, List.nodup_nil, true_and]
    constructor
    · rintro ⟨_, l, found, old, -⟩
      obtain ⟨split, -⟩ := require_eq_ok found
      have mem : l.it ∈ d.entries := by simp [split]
      refine ⟨_, unambiguous.resolves.mpr ⟨l, found, rfl⟩,
        (unambiguous.idOf_located found).mpr (List.mem_cons_of_mem _ old), ?_⟩
      rw [unambiguous.shown_eq mem, ne_eq, Option.some.injEq]
      rintro rfl
      exact (List.nodup_cons.mp (unambiguous.nodup_all mem)).1 old
    · rintro ⟨_, answers, own, notShown⟩
      obtain ⟨l, found, rfl⟩ := unambiguous.resolves.mp answers
      obtain ⟨split, -⟩ := require_eq_ok found
      rw [unambiguous.shown_eq (by simp [split])] at notShown
      refine ⟨_, l, found, ?_, rfl⟩
      rcases List.mem_cons.mp ((unambiguous.idOf_located found).mp own) with rfl | old
      · exact absurd rfl notShown
      · exact old
  · have unambiguous' := unambiguous.after (removeAlias_step removed)
    obtain ⟨⟨before, x, after⟩, found, old, rfl⟩ := removeAlias_eq_ok.mp removed
    obtain ⟨next, entries⟩ := d
    obtain ⟨rfl, -⟩ := require_eq_ok found
    have mem : x ∈ before ++ x :: after := mem_split.mpr (.inl rfl)
    obtain ⟨notAlias, nodup⟩ := List.nodup_cons.mp (unambiguous.nodup_all mem)
    rw [Located.replace, index_rename keeps unambiguous unambiguous', Index.after]
    ext1
    · funext s
      by_cases gone : s = t
      · have ne : t ≠ (Entry.naming x).name := fun eq => notAlias (eq ▸ old)
        simp [gone, Naming.all, ne, old, List.Nodup.not_mem_erase nodup]
      · have same : s ∈ Naming.all ⟨(Entry.naming x).name, (Entry.naming x).aliases.erase t⟩
            ↔ s ∈ (Entry.naming x).all := by
          simp [Naming.all, List.mem_erase_of_ne gone]
        simp only [same, Function.update_of_ne gone]
        split
        · exact (unambiguous.idOf_eq mem ‹_›).symm
        · rfl
    · simp [← unambiguous.shown_eq (c := c) mem]
    · rfl
    · rfl

/-- Deleting an entry refines what it does to the index. -/
lemma delete_refines [LawfulEntry α] (unambiguous : d.Unambiguous) :
    Refines c d (.delete reference) (delete scope reference d) := by
  refine ⟨?_, fun d' deleted => ?_⟩
  · simp only [delete_eq_ok, Index.Allows, Index.Fits, Edit.names, List.not_mem_nil,
      false_imp_iff, implies_true, List.nodup_nil, true_and]
    constructor
    · rintro ⟨_, l, found, -⟩
      exact ⟨_, unambiguous.resolves.mpr ⟨l, found, rfl⟩⟩
    · rintro ⟨_, answers⟩
      obtain ⟨l, found, -⟩ := unambiguous.resolves.mp answers
      exact ⟨_, l, found, rfl⟩
  · have unambiguous' := unambiguous.after (delete_step deleted)
    obtain ⟨⟨before, x, after⟩, found, rfl⟩ := delete_eq_ok.mp deleted
    rw [Index.after, unambiguous.follow_eq found]
    obtain ⟨next, entries⟩ := d
    obtain ⟨rfl, -⟩ := require_eq_ok found
    exact index_remove unambiguous unambiguous'

end Refines

end Directory

end MetricRegistry.Catalog
