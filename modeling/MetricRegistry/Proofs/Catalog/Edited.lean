import MetricRegistry.Proofs.Catalog.Outline

/-!
# Edits by ids

An operation on a directory finds an entry by a name and writes in its place. Where ids are
unambiguous the place does not matter: `Directory.put` writes an entry over the one with its id, and
`Directory.drop` removes the one with an id. Writes obey the laws of a lens (`put_put`, `put_comm`,
`put_of_mem`). `Directory.Edited` lists what the five kinds of edit make of a directory in these
terms, and `Schema.Made` what the four kinds of change make of a catalog; `edit_eq_ok` reads the
success of a mutation as its change. So what is to be said of mutations one after the other is said
of writes to entries.
-/

namespace MetricRegistry.Catalog

/-- Entries that hold their naming beside all else. -/
class NamedEntry (α : Type) [Entry α] : Prop extends LawfulEntry α where
  rename_rename : ∀ (x : α) (n n' : Naming),
    Entry.rename (Entry.rename x n) n' = Entry.rename x n'
  rename_naming : ∀ x : α, Entry.rename x (Entry.naming x) = x

attribute [simp] NamedEntry.rename_rename NamedEntry.rename_naming

instance : NamedEntry Field := ⟨fun _ _ _ => rfl, fun _ => rfl⟩

instance : NamedEntry Metric := ⟨fun _ _ _ => rfl, fun _ => rfl⟩

/-- What an edit refers to by a name. -/
def Edit.reference? {γ : Type} : Edit γ → Option String
  | .create _ _ => none
  | .rename reference _ => some reference
  | .addAlias reference _ => some reference
  | .removeAlias reference _ => some reference
  | .delete reference => some reference

namespace Directory

variable {α : Type} [Entry α] {d d' : Directory α} {x y z : α} {t : String} {i : UInt32}

/-- The directory with an entry in the place of the one that has its id. -/
def put (d : Directory α) (y : α) : Directory α :=
  { d with entries := d.entries.map fun x => if Entry.id x = Entry.id y then y else x }

/-- The directory without the entry that has an id. -/
def drop (d : Directory α) (i : UInt32) : Directory α :=
  { d with entries := d.entries.filter (Entry.id · ≠ i) }

/-! ## Writing and removing -/

/-- Putting an entry keeps the ids. -/
@[simp]
lemma ids_put : (d.put y).ids = d.ids := by
  simp only [ids, put, List.map_map]
  apply List.map_congr_left
  intro x _
  by_cases same : Entry.id x = Entry.id y <;> simp [same]

/-- After an entry was put, it is there in the place of the one with its id. -/
lemma mem_put : z ∈ (d.put y).entries
    ↔ z = y ∧ Entry.id y ∈ d.ids ∨ z ∈ d.entries ∧ Entry.id z ≠ Entry.id y := by
  simp only [put, ids, List.mem_map]
  constructor
  · rintro ⟨x, mem, rfl⟩
    by_cases same : Entry.id x = Entry.id y
    · exact .inl ⟨if_pos same, x, mem, same⟩
    · rw [if_neg same]
      exact .inr ⟨mem, same⟩
  · rintro (⟨rfl, x, mem, same⟩ | ⟨mem, ne⟩)
    · exact ⟨x, mem, if_pos same⟩
    · exact ⟨z, mem, if_neg ne⟩

/-- An entry that was put is there. -/
lemma mem_put_self (mem : x ∈ d.entries) (same : Entry.id y = Entry.id x) :
    y ∈ (d.put y).entries :=
  mem_put.mpr (.inl ⟨rfl, same ▸ List.mem_map_of_mem mem⟩)

/-- After an id was dropped, every entry with another id is there. -/
lemma mem_drop : z ∈ (d.drop i).entries ↔ z ∈ d.entries ∧ Entry.id z ≠ i := by
  simp [drop]

/-- The last of two writes to an id stands. -/
lemma put_put (same : Entry.id x = Entry.id y) : (d.put x).put y = d.put y := by
  simp only [put, List.map_map]
  congr 1
  apply List.map_congr_left
  intro z _
  by_cases here : Entry.id z = Entry.id y <;> simp [here, same]

/-- Writes to two ids may change places. -/
lemma put_comm (ne : Entry.id x ≠ Entry.id y) : (d.put x).put y = (d.put y).put x := by
  simp only [put, List.map_map]
  congr 1
  apply List.map_congr_left
  intro z _
  by_cases first : Entry.id z = Entry.id x
  · simp [first, ne]
  · by_cases second : Entry.id z = Entry.id y <;> simp [first, second, Ne.symm ne]

/-- A write of what is there changes nothing. -/
lemma Unambiguous.put_of_mem (unambiguous : d.Unambiguous) (mem : x ∈ d.entries) :
    d.put x = d := by
  have each : ∀ z ∈ d.entries, (if Entry.id z = Entry.id x then x else z) = z := by
    intro z zmem
    split
    · exact unambiguous.eq_of_id mem zmem (Eq.symm ‹_›)
    · rfl
  simp only [put, List.map_congr_left each, List.map_id']

/-- An entry is put and an id is dropped in either order. -/
lemma drop_put : (d.put y).drop i = (d.drop i).put y := by
  simp only [put, drop, List.filter_map]
  congr 2
  apply List.filter_congr
  intro z _
  by_cases same : Entry.id z = Entry.id y <;> simp [same]

/-- A write under a naming that is kept leaves all names as they were. -/
lemma Unambiguous.names_put (unambiguous : d.Unambiguous) (mem : x ∈ d.entries)
    (id : Entry.id y = Entry.id x) (naming : Entry.naming y = Entry.naming x) :
    (d.put y).names = d.names := by
  simp only [names, put, List.flatMap_map]
  apply List.flatMap_congr
  intro z zmem
  split
  · rw [naming, unambiguous.eq_of_id zmem mem (Eq.trans ‹_› id)]
  · rfl

/-- A text is free if no entry has it as a name. -/
lemma isFree_iff : d.IsFree t ↔ t ∉ d.names := by
  simp [IsFree, names]

/-- Putting an entry with the same names keeps which texts are free. -/
lemma Unambiguous.isFree_put (unambiguous : d.Unambiguous) (mem : x ∈ d.entries)
    (id : Entry.id y = Entry.id x) (naming : Entry.naming y = Entry.naming x) :
    (d.put y).IsFree t ↔ d.IsFree t := by
  rw [isFree_iff, isFree_iff, unambiguous.names_put mem id naming]

/-- Putting an entry with the same names keeps a directory unambiguous. -/
lemma Unambiguous.unambiguous_put (unambiguous : d.Unambiguous) (mem : x ∈ d.entries)
    (id : Entry.id y = Entry.id x) (naming : Entry.naming y = Entry.naming x) :
    (d.put y).Unambiguous := by
  refine ⟨?_, ?_, ?_⟩
  · intro z zmem
    rcases mem_put.mp zmem with ⟨rfl, -⟩ | ⟨old, -⟩
    · exact id ▸ unambiguous.ids_lt x mem
    · exact unambiguous.ids_lt z old
  · rw [ids_put]
    exact unambiguous.ids_nodup
  · rw [unambiguous.names_put mem id naming]
    exact unambiguous.names_nodup

/-! ## The place of an entry -/

section Place

variable {scope : Scope} {reference : String} {l : Located α}

/-- An entry that is required is the one that is found. -/
lemma find?_of_require (found : d.require scope reference = .ok l) :
    d.find? reference = some l.it := by
  unfold require at found
  split at found
  case h_1 l' located =>
    obtain rfl := Except.ok.inj found
    simp [find?, located]
  case h_2 => cases found

/-- An entry that is found can be required. -/
lemma require_of_find? (scope : Scope) (found : d.find? reference = some x) :
    ∃ l, d.require scope reference = .ok l ∧ l.it = x := by
  obtain ⟨l, located, rfl⟩ := Option.map_eq_some_iff.mp found
  exact ⟨l, by simp [require, located], rfl⟩

/-- To write in the place of a located entry is to write over its id. -/
lemma Unambiguous.replace_eq (unambiguous : d.Unambiguous)
    (found : d.require scope reference = .ok l) (same : Entry.id y = Entry.id l.it) :
    ⟨d.next, l.replace y⟩ = d.put y := by
  obtain ⟨next, entries⟩ := d
  obtain ⟨before, x, after⟩ := l
  obtain ⟨rfl, -⟩ := require_eq_ok found
  have others : ∀ z ∈ before ++ after, (if Entry.id z = Entry.id y then y else z) = z :=
    fun z mem => if_neg (same ▸ unambiguous.id_ne_of_mem mem)
  rw [List.forall_mem_append] at others
  simp [Located.replace, put, same.symm, List.map_congr_left others.1,
    List.map_congr_left others.2]

/-- To remove a located entry is to remove its id. -/
lemma Unambiguous.remove_eq (unambiguous : d.Unambiguous)
    (found : d.require scope reference = .ok l) : ⟨d.next, l.remove⟩ = d.drop (Entry.id l.it) := by
  obtain ⟨next, entries⟩ := d
  obtain ⟨before, x, after⟩ := l
  obtain ⟨rfl, -⟩ := require_eq_ok found
  have others : ∀ z ∈ before ++ after, decide (Entry.id z ≠ Entry.id x) = true :=
    fun z mem => decide_eq_true (unambiguous.id_ne_of_mem mem)
  rw [List.forall_mem_append] at others
  simp only [Located.remove, drop, List.filter_append, List.filter_cons, ne_eq, not_true_eq_false,
    decide_false, Bool.false_eq_true, if_false, List.filter_eq_self.mpr others.1,
    List.filter_eq_self.mpr others.2]

end Place

/-! ## What an edit makes -/

variable {γ : Type} {make : UInt32 → Naming → γ → α}

/-- What an edit makes of a directory, where it may be made; `make` says what a new entry is. -/
inductive Edited (make : UInt32 → Naming → γ → α) (d : Directory α) :
    Edit γ → Directory α → Prop where
  | create {n g id} :
    (∀ t ∈ n.all, ValidName t ∧ d.IsFree t) →
    n.all.Nodup →
    id = (if d.next = 0 then 1 else d.next) →
    id.toNat + 1 < UInt32.size →
    Edited make d (.create n g) ⟨id + 1, d.entries ++ [make id n g]⟩
  | rename {reference t x} :
    ValidName t →
    d.find? reference = some x →
    t ∈ (Entry.naming x).all ∨ d.IsFree t →
    Edited make d (.rename reference t)
      (d.put (Entry.rename x ⟨t, (Entry.naming x).aliases.erase t⟩))
  | addAlias {reference t x} :
    ValidName t →
    d.find? reference = some x →
    d.IsFree t →
    Edited make d (.addAlias reference t)
      (d.put (Entry.rename x ⟨(Entry.naming x).name, (Entry.naming x).aliases ++ [t]⟩))
  | removeAlias {reference t x} :
    d.find? reference = some x →
    t ∈ (Entry.naming x).aliases →
    Edited make d (.removeAlias reference t)
      (d.put (Entry.rename x ⟨(Entry.naming x).name, (Entry.naming x).aliases.erase t⟩))
  | delete {reference x} :
    d.find? reference = some x →
    Edited make d (.delete reference) (d.drop (Entry.id x))

section Operations

variable {scope : Scope} {reference : String} {n : Naming} {g : γ}

/-- Creating is the edit that creates. -/
lemma create_eq_ok_iff_edited (make : UInt32 → Naming → γ → α) :
    create scope (fun id n => make id n g) n d = .ok d' ↔ Edited make d (.create n g) d' := by
  rw [create_eq_ok]
  constructor
  · rintro ⟨new, nodup, id, isNext, fits, rfl⟩
    exact .create new nodup isNext fits
  · intro edited
    cases edited with
    | create new nodup isNext fits => exact ⟨new, nodup, _, isNext, fits, rfl⟩

/-- The name of an entry is none of its aliases. -/
lemma Unambiguous.erase_name (unambiguous : d.Unambiguous) (mem : x ∈ d.entries) :
    (Entry.naming x).aliases.erase (Entry.naming x).name = (Entry.naming x).aliases :=
  List.erase_of_not_mem (List.nodup_cons.mp (unambiguous.nodup_all mem)).1

variable [NamedEntry α]

/-- To give an entry the name that it has changes nothing. -/
lemma Unambiguous.put_rename_name (unambiguous : d.Unambiguous) (mem : x ∈ d.entries) :
    d.put (Entry.rename x ⟨(Entry.naming x).name,
      (Entry.naming x).aliases.erase (Entry.naming x).name⟩) = d := by
  rw [unambiguous.erase_name mem]
  exact (congrArg d.put (NamedEntry.rename_naming x)).trans (unambiguous.put_of_mem mem)

/-- Renaming is the edit that renames. -/
lemma rename_eq_ok_iff_edited (unambiguous : d.Unambiguous) (valid : ValidName t) :
    rename scope reference t d = .ok d' ↔ Edited make d (.rename reference t) d' := by
  rw [rename_eq_ok]
  constructor
  · rintro ⟨l, found, ⟨rfl, rfl⟩ | ⟨ne, origin, rfl⟩⟩
    · obtain ⟨split, -⟩ := require_eq_ok found
      have renamed : Edited make d (.rename reference (Entry.naming l.it).name) _ :=
        .rename valid (find?_of_require found) (.inl List.mem_cons_self)
      rwa [unambiguous.put_rename_name (by simp [split])] at renamed
    · rw [unambiguous.replace_eq found (LawfulEntry.id_rename _ _)]
      exact .rename valid (find?_of_require found)
        (origin.imp_left (List.mem_cons_of_mem _))
  · intro edited
    cases edited with
    | rename _ found origin =>
      obtain ⟨l, required, rfl⟩ := require_of_find? scope found
      refine ⟨l, required, ?_⟩
      by_cases same : (Entry.naming l.it).name = t
      · subst same
        obtain ⟨mem, -⟩ := unambiguous.find?_eq_some.mp found
        exact .inl ⟨rfl, (unambiguous.put_rename_name mem).symm⟩
      · refine .inr ⟨same, ?_, unambiguous.replace_eq required (LawfulEntry.id_rename _ _)⟩
        exact origin.imp_left fun own => (List.mem_cons.mp own).resolve_left (Ne.symm same)

/-- Adding an alias is the edit that adds one. -/
lemma addAlias_eq_ok_iff_edited (unambiguous : d.Unambiguous) (valid : ValidName t) :
    addAlias scope reference t d = .ok d' ↔ Edited make d (.addAlias reference t) d' := by
  rw [addAlias_eq_ok]
  constructor
  · rintro ⟨l, found, free, rfl⟩
    rw [unambiguous.replace_eq found (LawfulEntry.id_rename _ _)]
    exact .addAlias valid (find?_of_require found) free
  · intro edited
    cases edited with
    | addAlias _ found free =>
      obtain ⟨l, required, rfl⟩ := require_of_find? scope found
      exact ⟨l, required, free, unambiguous.replace_eq required (LawfulEntry.id_rename _ _)⟩

/-- Removing an alias is the edit that removes one. -/
lemma removeAlias_eq_ok_iff_edited (unambiguous : d.Unambiguous) :
    removeAlias scope reference t d = .ok d' ↔ Edited make d (.removeAlias reference t) d' := by
  rw [removeAlias_eq_ok]
  constructor
  · rintro ⟨l, found, old, rfl⟩
    rw [unambiguous.replace_eq found (LawfulEntry.id_rename _ _)]
    exact .removeAlias (find?_of_require found) old
  · intro edited
    cases edited with
    | removeAlias found old =>
      obtain ⟨l, required, rfl⟩ := require_of_find? scope found
      exact ⟨l, required, old, unambiguous.replace_eq required (LawfulEntry.id_rename _ _)⟩

omit [NamedEntry α] in
/-- Deleting is the edit that deletes. -/
lemma delete_eq_ok_iff_edited (unambiguous : d.Unambiguous) :
    delete scope reference d = .ok d' ↔ Edited make d (.delete reference) d' := by
  rw [delete_eq_ok]
  constructor
  · rintro ⟨l, found, rfl⟩
    rw [unambiguous.remove_eq found]
    exact .delete (find?_of_require found)
  · intro edited
    cases edited with
    | delete found =>
      obtain ⟨l, required, rfl⟩ := require_of_find? scope found
      exact ⟨l, required, unambiguous.remove_eq required⟩

end Operations

/-- Names that come in are valid. -/
lemma Edited.valid {e : Edit γ} (edited : Edited make d e d') : ∀ t ∈ e.names, ValidName t := by
  cases edited with
  | create new => exact fun t mem => (new t mem).1
  | rename valid => exact fun t mem => List.mem_singleton.mp mem ▸ valid
  | addAlias valid => exact fun t mem => List.mem_singleton.mp mem ▸ valid
  | removeAlias => exact fun _ mem => nomatch mem
  | delete => exact fun _ mem => nomatch mem

/-- What an edit refers to is there. -/
lemma Edited.find? {e : Edit γ} {reference : String} (edited : Edited make d e d')
    (refers : e.reference? = some reference) : ∃ x, d.find? reference = some x := by
  cases edited with
  | create => exact nomatch refers
  | rename _ found | addAlias _ found | removeAlias found | delete found =>
    obtain rfl := Option.some.inj refers
    exact ⟨_, found⟩

/-- An edit leaves a directory unambiguous. -/
lemma Unambiguous.edited [NamedEntry α] {e : Edit γ}
    (lawful : ∀ id n g, Entry.id (make id n g) = id ∧ Entry.naming (make id n g) = n)
    (unambiguous : d.Unambiguous) (edited : Edited make d e d') : d'.Unambiguous := by
  -- the operation that makes the edit is a step, in whatever scope
  cases e with
  | create n g =>
    have made : create .metrics (fun id n => make id n g) n d = .ok d' :=
      (create_eq_ok_iff_edited make).mpr edited
    exact unambiguous.after
      (create_step (fun id => ⟨(lawful id n g).1, (lawful id n g).2, trivial⟩) made)
  | rename reference t =>
    have valid := edited.valid t (List.mem_singleton_self t)
    have made : rename .metrics reference t d = .ok d' :=
      (rename_eq_ok_iff_edited unambiguous valid).mpr edited
    exact unambiguous.after (rename_step valid made)
  | addAlias reference t =>
    have valid := edited.valid t (List.mem_singleton_self t)
    have made : addAlias .metrics reference t d = .ok d' :=
      (addAlias_eq_ok_iff_edited unambiguous valid).mpr edited
    exact unambiguous.after (addAlias_step valid made)
  | removeAlias reference t =>
    have made : removeAlias .metrics reference t d = .ok d' :=
      (removeAlias_eq_ok_iff_edited unambiguous).mpr edited
    exact unambiguous.after (removeAlias_step made)
  | delete reference =>
    have made : delete .metrics reference d = .ok d' :=
      (delete_eq_ok_iff_edited unambiguous).mpr edited
    exact unambiguous.after (delete_step made)

end Directory

/-! ## What a mutation makes -/

/-- A metric that is new has no fields. -/
def Metric.created (id : UInt32) (n : Naming) (_ : Index FieldType) : Metric :=
  ⟨id, n, .empty⟩

/-- A field that is new. -/
def Field.created (id : UInt32) (n : Naming) (type : FieldType) : Field :=
  ⟨id, n, type⟩

/-- A metric is created with its id and its names. -/
lemma Metric.created_lawful (id : UInt32) (n : Naming) (content : Index FieldType) :
    Entry.id (created id n content) = id ∧ Entry.naming (created id n content) = n :=
  ⟨rfl, rfl⟩

/-- A field is created with its id and its names. -/
lemma Field.created_lawful (id : UInt32) (n : Naming) (type : FieldType) :
    Entry.id (created id n type) = id ∧ Entry.naming (created id n type) = n :=
  ⟨rfl, rfl⟩

namespace Schema

variable {s s' : Schema}

/-- The catalog with a metric in the place of the one that has its id. -/
def put (s : Schema) (m : Metric) : Schema :=
  { s with metrics := s.metrics.put m }

/-- Two metrics with different ids are put in either order. -/
lemma put_comm {m m' : Metric} (ne : m.id ≠ m'.id) : (s.put m).put m' = (s.put m').put m :=
  congrArg (Schema.mk s.toTenant) (Directory.put_comm ne)

/-- Of two metrics with one id the later stays. -/
lemma put_put {m m' : Metric} (same : m.id = m'.id) : (s.put m).put m' = s.put m' :=
  congrArg (Schema.mk s.toTenant) (Directory.put_put same)

/-- Putting a metric that is there changes nothing. -/
lemma Unambiguous.put_of_mem (unambiguous : s.Unambiguous) {m : Metric}
    (mem : m ∈ s.metrics.entries) : s.put m = s :=
  congrArg (Schema.mk s.toTenant) (unambiguous.1.put_of_mem mem)

/-- A write is undone by one of what was there. -/
lemma Unambiguous.put_back (unambiguous : s.Unambiguous) {m : Metric}
    (mem : m ∈ s.metrics.entries) (m' : Metric) (same : m'.id = m.id) : (s.put m').put m = s :=
  (put_put same).trans (unambiguous.put_of_mem mem)

/-- What a change makes of a catalog, where it may be made. -/
inductive Made (s : Schema) : Change → Schema → Prop where
  | keys {keys} :
    (∀ t ∈ keys, ValidName t) →
    keys.Nodup →
    Made s (.keys keys) { s with metricKeys := keys }
  | formats {formats} :
    (∀ t ∈ formats, Timestamp.validateFormat t = .ok ()) →
    Made s (.formats formats) { s with timestampFormats := formats }
  | metrics {e metrics} :
    s.metrics.Edited Metric.created e metrics →
    Made s (.metrics e) { s with metrics := metrics }
  | fields {reference m e fields} :
    s.metrics.find? reference = some m →
    m.fields.Edited Field.created e fields →
    Made s (.fields reference e) (s.put { m with fields := fields })

/-- Changing the metrics is the edit of the metrics. -/
lemma changeMetrics_eq_ok {e : Edit (Index FieldType)}
    {change : Directory Metric → Except Rejection (Directory Metric)}
    (edits : ∀ d', change s.metrics = .ok d' ↔ s.metrics.Edited Metric.created e d') :
    s.changeMetrics change = .ok s' ↔ s.Made (.metrics e) s' := by
  simp only [changeMetrics, Except.bind_eq_ok, Except.pure_eq_ok, edits]
  constructor
  · rintro ⟨metrics, edited, rfl⟩
    exact .metrics edited
  · intro made
    cases made with
    | metrics edited => exact ⟨_, edited, rfl⟩

/-- Changing the fields of a metric is the edit of its fields. -/
lemma changeFields_eq_ok_iff_made {reference : String} {e : Edit FieldType}
    {change : Scope → Directory Field → Except Rejection (Directory Field)}
    (unambiguous : s.Unambiguous)
    (edits : ∀ m ∈ s.metrics.entries, ∀ d',
      change m.scope m.fields = .ok d' ↔ m.fields.Edited Field.created e d') :
    s.changeFields reference change = .ok s' ↔ s.Made (.fields reference e) s' := by
  rw [changeFields_eq_ok]
  constructor
  · rintro ⟨l, fields, required, changed, rfl⟩
    have found := Directory.find?_of_require required
    obtain ⟨mem, -⟩ := unambiguous.1.find?_eq_some.mp found
    rw [unambiguous.1.replace_eq (y := { l.it with fields := fields }) required rfl]
    exact .fields found ((edits _ mem _).mp changed)
  · intro made
    cases made with
    | fields found edited =>
      obtain ⟨mem, -⟩ := unambiguous.1.find?_eq_some.mp found
      obtain ⟨l, required, rfl⟩ := Directory.require_of_find? .metrics found
      exact ⟨l, _, required, (edits _ mem _).mpr edited,
        congrArg (Schema.mk s.toTenant) (unambiguous.1.replace_eq required rfl)⟩

/-- The names that an edit of the metrics gives are valid. -/
lemma Made.valid_of_metrics {e : Edit (Index FieldType)} {t : String} (mem : t ∈ e.names)
    (made : s.Made (.metrics e) s') : ValidName t := by
  cases made with
  | metrics edited => exact edited.valid t mem

/-- The names that an edit of fields gives are valid. -/
lemma Made.valid_of_fields {reference t : String} {e : Edit FieldType} (mem : t ∈ e.names)
    (made : s.Made (.fields reference e) s') : ValidName t := by
  cases made with
  | fields _ edited => exact edited.valid t mem

/-- A check of the name that comes in changes nothing where only a valid one is taken. -/
lemma validated_eq_ok {c : Change} {what t : String} {r : Except Rejection Schema}
    (needs : s.Made c s' → ValidName t) (made : ValidName t → (r = .ok s' ↔ s.Made c s')) :
    (do (validateName what t).mapError Rejection.invalid; r) = .ok s' ↔ s.Made c s' := by
  simp only [Except.bind_eq_ok, Except.mapError_eq_ok, validateName_eq_ok, exists_const]
  constructor
  · rintro ⟨valid, changed⟩
    exact (made valid).mp changed
  · intro change
    exact ⟨needs change, (made (needs change)).mpr change⟩

/-- A mutation of an unambiguous catalog succeeds where its change may be made, and makes it. -/
lemma edit_eq_ok (unambiguous : s.Unambiguous) (m : Mutation) :
    s.edit m = .ok s' ↔ s.Made m.change s' := by
  cases m with
  | setMetricKeys keys =>
    simp only [edit, Except.bind_eq_ok, Except.mapError_eq_ok, validateDistinct_eq_ok, exists_const,
      Except.pure_eq_ok]
    constructor
    · rintro ⟨⟨valid, nodup⟩, rfl⟩
      exact .keys valid nodup
    · intro made
      cases made with
      | keys valid nodup => exact ⟨⟨valid, nodup⟩, rfl⟩
  | setTimestampFormats formats =>
    simp only [edit, validateFormats, Except.bind_eq_ok, Except.mapError_eq_ok, forM_eq_ok,
      exists_const, Except.pure_eq_ok]
    constructor
    · rintro ⟨valid, rfl⟩
      exact .formats valid
    · intro made
      cases made with
      | formats valid => exact ⟨valid, rfl⟩
  | createMetric name aliases =>
    exact changeMetrics_eq_ok fun _ => Directory.create_eq_ok_iff_edited Metric.created
  | renameMetric metric newName =>
    refine validated_eq_ok (Made.valid_of_metrics (List.mem_singleton_self _)) fun valid => ?_
    exact changeMetrics_eq_ok fun _ => Directory.rename_eq_ok_iff_edited unambiguous.1 valid
  | addMetricAlias metric alternate =>
    refine validated_eq_ok (Made.valid_of_metrics (List.mem_singleton_self _)) fun valid => ?_
    exact changeMetrics_eq_ok fun _ => Directory.addAlias_eq_ok_iff_edited unambiguous.1 valid
  | removeMetricAlias metric alternate =>
    exact changeMetrics_eq_ok fun _ => Directory.removeAlias_eq_ok_iff_edited unambiguous.1
  | deleteMetric metric =>
    exact changeMetrics_eq_ok fun _ => Directory.delete_eq_ok_iff_edited unambiguous.1
  | createField metric name type aliases =>
    simp only [edit, Mutation.change]
    exact changeFields_eq_ok_iff_made unambiguous fun _ _ _ =>
      Directory.create_eq_ok_iff_edited Field.created
  | renameField metric field newName =>
    refine validated_eq_ok (Made.valid_of_fields (List.mem_singleton_self _)) fun valid => ?_
    exact changeFields_eq_ok_iff_made unambiguous fun m mem _ =>
      Directory.rename_eq_ok_iff_edited (unambiguous.2 m mem) valid
  | addFieldAlias metric field alternate =>
    refine validated_eq_ok (Made.valid_of_fields (List.mem_singleton_self _)) fun valid => ?_
    exact changeFields_eq_ok_iff_made unambiguous fun m mem _ =>
      Directory.addAlias_eq_ok_iff_edited (unambiguous.2 m mem) valid
  | removeFieldAlias metric field alternate =>
    simp only [edit, Mutation.change]
    exact changeFields_eq_ok_iff_made unambiguous fun m mem _ =>
      Directory.removeAlias_eq_ok_iff_edited (unambiguous.2 m mem)
  | deleteField metric field =>
    simp only [edit, Mutation.change]
    exact changeFields_eq_ok_iff_made unambiguous fun m mem _ =>
      Directory.delete_eq_ok_iff_edited (unambiguous.2 m mem)

/-- A mutation is applied if its change can be made. -/
lemma apply_eq_ok_iff_made (unambiguous : s.Unambiguous) {m : Mutation} :
    s.apply m = .ok s' ↔ s.Made m.change s' := by
  rw [apply_eq_ok_iff_edit unambiguous, edit_eq_ok unambiguous]

/-- Without mutations a catalog stays as it is. -/
lemma applyAll_nil : s.applyAll [] = .ok s' ↔ s = s' :=
  Except.pure_eq_ok

/-- Several mutations are one that makes its change and the others after it. -/
lemma applyAll_cons (unambiguous : s.Unambiguous) {m : Mutation} {ms : List Mutation} :
    s.applyAll (m :: ms) = .ok s' ↔ ∃ s₁, s.Made m.change s₁ ∧ s₁.applyAll ms = .ok s' := by
  simp only [applyAll, List.foldlM_cons, Except.bind_eq_ok, apply_eq_ok_iff_made unambiguous]

/-- What a mutation makes is unambiguous. -/
lemma Unambiguous.made (unambiguous : s.Unambiguous) {m : Mutation} (made : s.Made m.change s') :
    s'.Unambiguous :=
  (apply_eq_ok.mp ((apply_eq_ok_iff_made unambiguous).mpr made)).2

end Schema

end MetricRegistry.Catalog
