import MetricRegistry.Proofs.Catalog.Edited

/-!
# Edits of one entry's names

Edits that are made one after the other find their entry again by a name, each in the directory that
the ones before it left. `Directory.Renames` says of a list of edits where all of them may be made,
and that together they do no more than give one entry another naming; `Renames.append` joins two
lists. From the three kinds of single edits follow, by induction, lists of additions
(`renames_addAll`) and of removals (`renames_removeAll`). The latter take an alias by which they
refer to the entry last.
-/

namespace MetricRegistry.Catalog

namespace Directory

variable {α γ : Type} [Entry α] {make : UInt32 → Naming → γ → α}

/-! ## Several edits -/

/-- What edits make of a directory, one after the other. -/
inductive EditedAll (make : UInt32 → Naming → γ → α) :
    Directory α → List (Edit γ) → Directory α → Prop where
  | nil {d} :
    EditedAll make d [] d
  | cons {d d₁ d' e es} :
    Edited make d e d₁ →
    EditedAll make d₁ es d' →
    EditedAll make d (e :: es) d'

variable {d d' : Directory α} {x : α} {e : Edit γ} {es fs : List (Edit γ)} {Q Q' : Prop}
variable {n n' : Naming} {t u handle : String}

/-- Edits one after the other are those of the first list and then those of the second. -/
lemma editedAll_append :
    EditedAll make d (es ++ fs) d' ↔ ∃ d₁, EditedAll make d es d₁ ∧ EditedAll make d₁ fs d' := by
  induction es generalizing d with
  | nil =>
    constructor
    · intro edited
      exact ⟨d, .nil, edited⟩
    · rintro ⟨_, before, after⟩
      cases before
      exact after
  | cons e es ih =>
    constructor
    · intro edited
      cases edited with
      | cons first rest =>
        obtain ⟨d₁, before, after⟩ := ih.mp rest
        exact ⟨d₁, .cons first before, after⟩
    · rintro ⟨d₁, before, after⟩
      cases before with
      | cons first rest => exact .cons first (ih.mpr ⟨d₁, rest, after⟩)

/-- One edit is a list of edits. -/
lemma editedAll_singleton : EditedAll make d [e] d' ↔ Edited make d e d' := by
  constructor
  · intro edited
    cases edited with
    | cons first rest =>
      cases rest
      exact first
  · intro edited
    exact .cons edited .nil

/-! ## An entry under another naming -/

/-- The directory with an entry under another naming. -/
def calling (d : Directory α) (x : α) (n : Naming) : Directory α :=
  d.put (Entry.rename x n)

/-! ## Edits that give an entry another naming -/

/-- Edits may be made where `Q`, and give an entry another naming. -/
def Renames (make : UInt32 → Naming → γ → α) (d : Directory α) (x : α) (es : List (Edit γ))
    (Q : Prop) (n : Naming) : Prop :=
  ∀ d', EditedAll make d es d' ↔ Q ∧ d' = d.calling x n

namespace Renames

/-- What edits rename depends on the entry alone. -/
lemma congr (renames : Renames make d x es Q n) (when : Q ↔ Q') (same : Q → n = n') :
    Renames make d x es Q' n' := by
  intro d'
  rw [renames d']
  constructor
  · rintro ⟨q, rfl⟩
    exact ⟨when.mp q, same q ▸ rfl⟩
  · rintro ⟨q', rfl⟩
    exact ⟨when.mpr q', same (when.mpr q') ▸ rfl⟩

end Renames

/-- The edit that renames an entry gives it the name and takes it from its aliases. -/
lemma renames_rename (found : d.find? handle = some x) :
    Renames make d x [.rename handle t] (ValidName t ∧ (t ∈ (Entry.naming x).all ∨ d.IsFree t))
      ⟨t, (Entry.naming x).aliases.erase t⟩ := by
  intro d'
  rw [editedAll_singleton]
  constructor
  · intro edited
    cases edited with
    | rename valid found' origin =>
      obtain rfl := Option.some.inj (found.symm.trans found')
      exact ⟨⟨valid, origin⟩, rfl⟩
  · rintro ⟨⟨valid, origin⟩, rfl⟩
    exact .rename valid found origin

/-- The edit that adds an alias gives it to the entry. -/
lemma renames_addAlias (found : d.find? handle = some x) :
    Renames make d x [.addAlias handle t] (ValidName t ∧ d.IsFree t)
      ⟨(Entry.naming x).name, (Entry.naming x).aliases ++ [t]⟩ := by
  intro d'
  rw [editedAll_singleton]
  constructor
  · intro edited
    cases edited with
    | addAlias valid found' free =>
      obtain rfl := Option.some.inj (found.symm.trans found')
      exact ⟨⟨valid, free⟩, rfl⟩
  · rintro ⟨⟨valid, free⟩, rfl⟩
    exact .addAlias valid found free

/-- The edit that removes an alias takes it from the entry. -/
lemma renames_removeAlias (found : d.find? handle = some x) :
    Renames make d x [.removeAlias handle t] (t ∈ (Entry.naming x).aliases)
      ⟨(Entry.naming x).name, (Entry.naming x).aliases.erase t⟩ := by
  intro d'
  rw [editedAll_singleton]
  constructor
  · intro edited
    cases edited with
    | removeAlias found' old =>
      obtain rfl := Option.some.inj (found.symm.trans found')
      exact ⟨old, rfl⟩
  · rintro ⟨old, rfl⟩
    exact .removeAlias found old

variable [NamedEntry α]

/-- Of two calls of one entry the later stays. -/
lemma calling_calling : (d.calling x n).calling (Entry.rename x n) n' = d.calling x n' := by
  rw [calling, calling, NamedEntry.rename_rename]
  exact put_put (by simp only [LawfulEntry.id_rename])

/-- An entry that is called as it is changes nothing. -/
lemma Unambiguous.calling_naming (unambiguous : d.Unambiguous) (mem : x ∈ d.entries) :
    d.calling x (Entry.naming x) = d := by
  rw [calling, NamedEntry.rename_naming]
  exact unambiguous.put_of_mem mem

/-- An entry that was called otherwise is there. -/
lemma mem_calling (mem : x ∈ d.entries) : Entry.rename x n ∈ (d.calling x n).entries :=
  mem_put_self mem (LawfulEntry.id_rename _ _)

/-- Free is what is no new name of the entry and no name of another. -/
lemma isFree_calling (mem : x ∈ d.entries) : (d.calling x n).IsFree t
    ↔ t ∉ n.all ∧ ∀ z ∈ d.entries, Entry.id z ≠ Entry.id x → t ∉ (Entry.naming z).all := by
  constructor
  · intro free
    constructor
    · have own := free _ (mem_calling mem)
      rwa [LawfulEntry.naming_rename] at own
    · intro z zmem ne
      exact free z (mem_put.mpr (.inr ⟨zmem, by rwa [LawfulEntry.id_rename]⟩))
  · rintro ⟨own, others⟩ z zmem
    rcases mem_put.mp zmem with ⟨rfl, -⟩ | ⟨old, ne⟩
    · rwa [LawfulEntry.naming_rename]
    · exact others z old (by rwa [LawfulEntry.id_rename] at ne)

/-- A text is free if neither an entry nor those beside it have it. -/
lemma Unambiguous.isFree_iff_beside (unambiguous : d.Unambiguous) (mem : x ∈ d.entries) :
    d.IsFree t ↔ t ∉ (Entry.naming x).all
      ∧ ∀ z ∈ d.entries, Entry.id z ≠ Entry.id x → t ∉ (Entry.naming z).all := by
  have same := isFree_calling mem (n := Entry.naming x) (t := t)
  rwa [unambiguous.calling_naming mem] at same

/-- Beside an alias that was added the same texts are free. -/
lemma Unambiguous.isFree_addAlias (unambiguous : d.Unambiguous) (mem : x ∈ d.entries) :
    (d.calling x ⟨(Entry.naming x).name, (Entry.naming x).aliases ++ [t]⟩).IsFree u
      ↔ d.IsFree u ∧ u ≠ t := by
  rw [isFree_calling mem, unambiguous.isFree_iff_beside mem]
  simp only [Naming.all, List.mem_cons, List.mem_append, List.not_mem_nil, or_false]
  tauto

/-- A name that was removed is free. -/
lemma Unambiguous.isFree_removeAlias (unambiguous : d.Unambiguous) (mem : x ∈ d.entries)
    (old : t ∈ (Entry.naming x).aliases) :
    (d.calling x ⟨(Entry.naming x).name, (Entry.naming x).aliases.erase t⟩).IsFree t := by
  obtain ⟨once, nodup⟩ := List.nodup_cons.mp (unambiguous.nodup_all mem)
  refine (isFree_calling mem).mpr ⟨?_, ?_⟩
  · intro own
    rcases List.mem_cons.mp own with same | left
    · exact once (same ▸ old)
    · exact nodup.not_mem_erase left
  · intro z zmem ne own
    exact ne (congrArg Entry.id (unambiguous.eq_of_name zmem mem own (List.mem_cons_of_mem _ old)))

/-! ## Edits one after the other -/

namespace Renames

/-- Further edits are made of the entry under the naming that it has by then. -/
lemma append (first : Renames make d x es Q n)
    (second : Q → Renames make (d.calling x n) (Entry.rename x n) fs Q' n') :
    Renames make d x (es ++ fs) (Q ∧ Q') n' := by
  intro d'
  rw [editedAll_append]
  constructor
  · rintro ⟨d₁, before, after⟩
    obtain ⟨q, rfl⟩ := (first d₁).mp before
    obtain ⟨q', rfl⟩ := (second q d').mp after
    exact ⟨⟨q, q'⟩, calling_calling⟩
  · rintro ⟨⟨q, q'⟩, rfl⟩
    exact ⟨_, (first _).mpr ⟨q, rfl⟩, (second q _).mpr ⟨q', calling_calling.symm⟩⟩

end Renames

/-- No edits keep an entry as it is. -/
lemma Unambiguous.renames_nil (unambiguous : d.Unambiguous) (mem : x ∈ d.entries) :
    Renames make d x [] True (Entry.naming x) := by
  intro d'
  rw [unambiguous.calling_naming mem, true_and]
  constructor
  · intro edited
    cases edited
    rfl
  · rintro rfl
    exact .nil

/-! ## Several additions and removals -/

/-- Where nothing answers to the handle, nothing is removed under it. -/
lemma Unambiguous.renames_removeAll_of_isFree (unambiguous : d.Unambiguous) (mem : x ∈ d.entries)
    (free : d.IsFree handle) (ts : List String) :
    Renames make d x (ts.map (.removeAlias handle)) (ts = []) (Entry.naming x) := by
  cases ts with
  | nil => exact (unambiguous.renames_nil mem).congr (by simp) fun _ => rfl
  | cons t ts =>
    intro d'
    simp only [List.map_cons, reduceCtorEq, false_and, iff_false]
    intro edited
    cases edited with
    | cons first rest =>
      cases first with
      | removeAlias found old => exact nomatch (find?_eq_none.mpr free).symm.trans found

section Lists

variable (lawful : ∀ id n g, Entry.id (make id n g) = id ∧ Entry.naming (make id n g) = n)
include lawful

/-- Edits keep a directory unambiguous. -/
lemma Unambiguous.editedAll (unambiguous : d.Unambiguous) (edited : EditedAll make d es d') :
    d'.Unambiguous := by
  induction edited with
  | nil => exact unambiguous
  | cons first _ ih => exact ih (unambiguous.edited lawful first)

/-- What edits call an entry leaves the directory unambiguous. -/
lemma Renames.unambiguous (unambiguous : d.Unambiguous) (renames : Renames make d x es Q n)
    (q : Q) : (d.calling x n).Unambiguous :=
  unambiguous.editedAll lawful ((renames _).mpr ⟨q, rfl⟩)

/-- After edits that may be made, the new names lead to the entry. -/
lemma Renames.find? (unambiguous : d.Unambiguous) (mem : x ∈ d.entries)
    (renames : Renames make d x es Q n) (q : Q) (own : t ∈ n.all) :
    (d.calling x n).find? t = some (Entry.rename x n) := by
  refine (renames.unambiguous lawful unambiguous q).find?_eq_some.mpr ⟨mem_calling mem, ?_⟩
  rwa [LawfulEntry.naming_rename]

/-- Texts may be added as aliases where they are valid, free and distinct. -/
lemma renames_addAll (unambiguous : d.Unambiguous) (found : d.find? handle = some x)
    (ts : List String) :
    Renames make d x (ts.map (.addAlias handle)) (ts.Nodup ∧ ∀ t ∈ ts, ValidName t ∧ d.IsFree t)
      ⟨(Entry.naming x).name, (Entry.naming x).aliases ++ ts⟩ := by
  induction ts generalizing d x with
  | nil =>
    obtain ⟨mem, -⟩ := unambiguous.find?_eq_some.mp found
    exact (unambiguous.renames_nil mem).congr (by simp) fun _ => by simp
  | cons t ts ih =>
    obtain ⟨mem, own⟩ := unambiguous.find?_eq_some.mp found
    have first : Renames make d x [.addAlias handle t] _ _ := renames_addAlias found
    have kept : handle ∈ Naming.all ⟨(Entry.naming x).name, (Entry.naming x).aliases ++ [t]⟩ :=
      List.mem_append_left [t] own
    refine (first.append fun q => ih (first.unambiguous lawful unambiguous q)
      (first.find? lawful unambiguous mem q kept)).congr ?_ fun _ => by simp
    simp only [List.nodup_cons, List.forall_mem_cons, unambiguous.isFree_addAlias mem]
    constructor
    · rintro ⟨new, nodup, rest⟩
      exact ⟨⟨fun again => (rest t again).2.2 rfl, nodup⟩, new,
        fun u umem => ⟨(rest u umem).1, (rest u umem).2.1⟩⟩
    · rintro ⟨⟨once, nodup⟩, new, rest⟩
      exact ⟨new, nodup, fun u umem =>
        ⟨(rest u umem).1, (rest u umem).2, fun same => once (same ▸ umem)⟩⟩

/-- A removal of the handle leaves none to refer by, so it has to be the last. -/
lemma renames_removeHandle (unambiguous : d.Unambiguous) (found : d.find? handle = some x)
    (ts : List String) (only : ∀ t ∈ ts, t = handle) :
    Renames make d x ((handle :: ts).map (.removeAlias handle))
      ((handle :: ts).Nodup ∧ ∀ t ∈ handle :: ts, t ∈ (Entry.naming x).aliases)
      ⟨(Entry.naming x).name, (Entry.naming x).aliases.diff (handle :: ts)⟩ := by
  obtain ⟨mem, -⟩ := unambiguous.find?_eq_some.mp found
  have first : Renames make d x [.removeAlias handle handle] _ _ := renames_removeAlias found
  refine (first.append fun old =>
    (first.unambiguous lawful unambiguous old).renames_removeAll_of_isFree
      (mem_calling mem) (unambiguous.isFree_removeAlias mem old) ts).congr ?_ ?_
  · constructor
    · rintro ⟨old, rfl⟩
      simpa using old
    · rintro ⟨distinct, old⟩
      refine ⟨old handle List.mem_cons_self, List.eq_nil_iff_forall_not_mem.mpr fun t tmem => ?_⟩
      exact (List.nodup_cons.mp distinct).1 (only t tmem ▸ tmem)
  · rintro ⟨old, rfl⟩
    simp [List.diff_cons]

/-- Aliases may be removed where they are there and distinct; the handle, if it is one of them, has
to be the last. -/
lemma renames_removeAll (unambiguous : d.Unambiguous) (found : d.find? handle = some x)
    (ts : List String) (last : ts.Pairwise fun s t => s = handle → t = handle) :
    Renames make d x (ts.map (.removeAlias handle))
      (ts.Nodup ∧ ∀ t ∈ ts, t ∈ (Entry.naming x).aliases)
      ⟨(Entry.naming x).name, (Entry.naming x).aliases.diff ts⟩ := by
  induction ts generalizing d x with
  | nil =>
    obtain ⟨mem, -⟩ := unambiguous.find?_eq_some.mp found
    exact (unambiguous.renames_nil mem).congr (by simp) fun _ => by simp
  | cons t ts ih =>
    obtain ⟨mem, own⟩ := unambiguous.find?_eq_some.mp found
    obtain ⟨-, nodup⟩ := List.nodup_cons.mp (unambiguous.nodup_all mem)
    obtain ⟨after, last⟩ := List.pairwise_cons.mp last
    by_cases same : t = handle
    · subst same
      exact renames_removeHandle lawful unambiguous found ts fun u umem => after u umem rfl
    -- another alias leaves the handle, by which the others find the entry
    · have first : Renames make d x [.removeAlias handle t] _ _ := renames_removeAlias found
      have kept : handle
          ∈ Naming.all ⟨(Entry.naming x).name, (Entry.naming x).aliases.erase t⟩ := by
        rcases List.mem_cons.mp own with rfl | also
        · exact List.mem_cons_self
        · exact List.mem_cons_of_mem _ ((List.mem_erase_of_ne (Ne.symm same)).mpr also)
      refine (first.append fun q => ih (first.unambiguous lawful unambiguous q)
        (first.find? lawful unambiguous mem q kept) last).congr ?_ fun _ => ?_
      · simp only [List.nodup_cons, List.forall_mem_cons, LawfulEntry.naming_rename,
          nodup.mem_erase_iff]
        constructor
        · rintro ⟨old, distinct, rest⟩
          exact ⟨⟨fun again => (rest t again).1 rfl, distinct⟩, old, fun u umem => (rest u umem).2⟩
        · rintro ⟨⟨new, distinct⟩, old, rest⟩
          exact ⟨old, distinct, fun u umem => ⟨fun again => new (again ▸ umem), rest u umem⟩⟩
      · simp only [LawfulEntry.naming_rename, List.diff_cons]

end Lists

end Directory

/-! ## Mutations that are edits of one directory -/

namespace Schema

variable {s s' : Schema} {m : Metric} {ms : List Mutation} {reference : String}

/-- Mutations of the metrics are edits of the metrics. -/
lemma applyAll_metrics {es : List (Edit (Index FieldType))} (unambiguous : s.Unambiguous)
    (changes : ms.map Mutation.change = es.map .metrics) :
    s.applyAll ms = .ok s' ↔ ∃ metrics, s.metrics.EditedAll Metric.created es metrics
      ∧ s' = { s with metrics := metrics } := by
  induction es generalizing s ms with
  | nil =>
    obtain rfl := List.map_eq_nil_iff.mp changes
    rw [applyAll_nil]
    constructor
    · rintro rfl
      exact ⟨s.metrics, .nil, rfl⟩
    · rintro ⟨_, edited, rfl⟩
      cases edited
      rfl
  | cons e es ih =>
    obtain ⟨m, ms, rfl, change, changes⟩ := List.map_eq_cons_iff.mp changes
    rw [applyAll_cons unambiguous]
    constructor
    · rintro ⟨s₁, first, rest⟩
      obtain ⟨metrics, edited, rfl⟩ := (ih (unambiguous.made first) changes).mp rest
      rw [change] at first
      cases first with
      | metrics edit => exact ⟨metrics, .cons edit edited, rfl⟩
    · rintro ⟨metrics, edited, rfl⟩
      cases edited with
      | cons first rest =>
        have made : s.Made m.change _ := change ▸ Made.metrics first
        exact ⟨_, made, (ih (unambiguous.made made) changes).mpr ⟨metrics, rest, rfl⟩⟩

/-- Mutations of the fields of one metric are edits of its fields. -/
lemma applyAll_fields {es : List (Edit FieldType)} (unambiguous : s.Unambiguous)
    (found : s.metric? reference = some m)
    (changes : ms.map Mutation.change = es.map (.fields reference)) :
    s.applyAll ms = .ok s' ↔ ∃ fields, m.fields.EditedAll Field.created es fields
      ∧ s' = s.put { m with fields := fields } := by
  obtain ⟨mem, own⟩ := unambiguous.1.find?_eq_some.mp found
  induction es generalizing s ms m with
  | nil =>
    obtain rfl := List.map_eq_nil_iff.mp changes
    rw [applyAll_nil]
    constructor
    · rintro rfl
      exact ⟨m.fields, .nil, (unambiguous.put_of_mem mem).symm⟩
    · rintro ⟨_, edited, rfl⟩
      cases edited
      exact (unambiguous.put_of_mem mem).symm
  | cons e es ih =>
    obtain ⟨first, ms, rfl, change, changes⟩ := List.map_eq_cons_iff.mp changes
    -- the fields that the first edit makes are those that the others find
    have next {fields : Directory Field} (edited : m.fields.Edited Field.created e fields) :
        s.Made first.change (s.put { m with fields := fields })
          ∧ ((s.put { m with fields := fields }).applyAll ms = .ok s'
            ↔ ∃ fields', fields.EditedAll Field.created es fields'
              ∧ s' = s.put { m with fields := fields' }) := by
      have made : s.Made first.change (s.put { m with fields := fields }) :=
        change ▸ Made.fields found edited
      have between := unambiguous.made made
      have there : { m with fields := fields }
          ∈ (s.put { m with fields := fields }).metrics.entries :=
        Directory.mem_put_self mem rfl
      refine ⟨made, (ih between (between.1.find?_eq_some.mpr ⟨there, own⟩) changes there own).trans
        ?_⟩
      simp only [put_put]
    rw [applyAll_cons unambiguous]
    constructor
    · rintro ⟨s₁, made, rest⟩
      rw [change] at made
      cases made with
      | fields found' edited =>
        obtain rfl := Option.some.inj (found.symm.trans found')
        obtain ⟨fields, later, rfl⟩ := (next edited).2.mp rest
        exact ⟨fields, .cons edited later, rfl⟩
    · rintro ⟨fields, edited, rfl⟩
      cases edited with
      | cons edited later => exact ⟨_, (next edited).1, (next edited).2.mpr ⟨fields, later, rfl⟩⟩

/-- Edits of fields are made of a metric that is there. -/
lemma find?_of_applyAll_fields {e : Edit FieldType} {es : List (Edit FieldType)}
    (unambiguous : s.Unambiguous)
    (changes : ms.map Mutation.change = (e :: es).map (.fields reference))
    (applied : s.applyAll ms = .ok s') : ∃ m, s.metric? reference = some m := by
  obtain ⟨first, ms, rfl, change, -⟩ := List.map_eq_cons_iff.mp changes
  obtain ⟨s₁, made, -⟩ := (applyAll_cons unambiguous).mp applied
  rw [change] at made
  cases made with
  | fields found _ => exact ⟨_, found⟩

end Schema

end MetricRegistry.Catalog
