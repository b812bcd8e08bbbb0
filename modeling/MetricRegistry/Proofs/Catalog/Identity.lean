import Mathlib.Data.List.Chain
import MetricRegistry.Proofs.Catalog.Mutation
import MetricRegistry.Proofs.Catalog.RoundTrip

/-!
# Ids are permanent

An id that was given out stands for one metric, or for one field of a metric, for ever.
`Directory.Evolves` says how a directory may look after any number of changes: the counter has not
gone down, the entries that are left stand in their old order, new ones behind them have ids from
the old counter on, and an entry that is left is related to what it was. One step evolves
(`Step.evolves`), and what evolves twice evolves (`Evolves.trans`); both hold at the level of fields
first, where the relation is to have the same type, and then at the level of metrics, where it is
that the fields evolve. `identity_permanent` spells this out between any two points of a history of
changes and re-read documents.
-/

namespace MetricRegistry.Catalog
namespace Directory

variable {α : Type} [Entry α] {R : α → α → Prop} {d d' d'' : Directory α}

/-- The counter does not go down, old ids keep their order, and new ones come behind them. -/
def Extends (d d' : Directory α) : Prop :=
  d.next ≤ d'.next
    ∧ ∃ kept new, d'.ids = kept ++ new ∧ kept.Sublist d.ids ∧ ∀ i ∈ new, d.next ≤ i

/-- How a directory may look after some changes, where `R` relates an entry to what it was. -/
structure Evolves (R : α → α → Prop) (d d' : Directory α) : Prop where
  extend : d.Extends d'
  keeps : ∀ x ∈ d.entries, ∀ y ∈ d'.entries, Entry.id y = Entry.id x → R x y

/-- An entry has one of the ids. -/
lemma mem_ids {x : α} (mem : x ∈ d.entries) : Entry.id x ∈ d.ids :=
  List.mem_map_of_mem mem

/-- An id in an extension was there before, or had not been given out. -/
lemma Extends.mem_ids (extend : d.Extends d') {i : UInt32} (mem : i ∈ d'.ids) :
    i ∈ d.ids ∨ d.next ≤ i := by
  obtain ⟨-, kept, new, eq, old, late⟩ := extend
  rw [eq, List.mem_append] at mem
  exact mem.imp (fun h => old.subset h) (late i)

/-- A directory extends itself. -/
lemma Extends.refl (d : Directory α) : d.Extends d :=
  ⟨UInt32.le_refl _, d.ids, [], by simp, List.Sublist.refl _, by simp⟩

/-- An extension of an extension is one. -/
lemma Extends.trans (first : d.Extends d') (second : d'.Extends d'') : d.Extends d'' := by
  obtain ⟨le, kept, new, eq, old, late⟩ := first
  obtain ⟨le', kept', new', eq', old', late'⟩ := second
  -- of what the second kept, the first part was kept before and the second part is new
  rw [eq] at old'
  obtain ⟨kept₁, kept₂, rfl, sub₁, sub₂⟩ := List.sublist_append_iff.mp old'
  refine ⟨UInt32.le_trans le le', kept₁, kept₂ ++ new', by simp [eq'], sub₁.trans old, ?_⟩
  intro i mem
  rcases List.mem_append.mp mem with mem | mem
  · exact late i (sub₂.subset mem)
  · exact UInt32.le_trans le (late' i mem)

/-- Only an id below the counter was given out before. -/
lemma Extends.mem_ids_of_lt (extend : d.Extends d') {i : UInt32} (lt : i < d.next)
    (mem : i ∈ d'.ids) : i ∈ d.ids :=
  (extend.mem_ids mem).resolve_right (UInt32.not_le.mpr lt)

/-- A directory without changes evolves. -/
lemma Evolves.refl (unambiguous : d.Unambiguous) (same : ∀ x ∈ d.entries, R x x) :
    d.Evolves R d := by
  refine ⟨.refl d, fun x hx y hy eq => ?_⟩
  obtain rfl := unambiguous.eq_of_id hy hx eq
  exact same y hy

/-- What evolves twice evolves. -/
lemma Evolves.trans (unambiguous : d.Unambiguous)
    (compose : ∀ x ∈ d.entries, ∀ y ∈ d'.entries, ∀ z ∈ d''.entries, R x y → R y z → R x z)
    (first : d.Evolves R d') (second : d'.Evolves R d'') : d.Evolves R d'' := by
  refine ⟨first.extend.trans second.extend, fun x hx z hz eq => ?_⟩
  -- the entry was there in between, since its id is below the counter of the first directory
  have below : Entry.id z < d'.next := by
    have lt := unambiguous.ids_lt x hx
    rw [UInt32.lt_iff_toNat_lt, eq] at *
    exact Nat.lt_of_lt_of_le lt (UInt32.le_iff_toNat_le.mp first.extend.1)
  obtain ⟨y, hy, between⟩ :=
    List.mem_map.mp (second.extend.mem_ids_of_lt below (Directory.mem_ids hz))
  exact compose x hx y hy z hz (first.keeps x hx y hy (between.trans eq))
    (second.keeps y hy z hz between.symm)

/-- A directory evolves where one entry changes in its place and keeps its id. -/
lemma evolves_replace {next : UInt32} {before after : List α} {x y : α}
    (unambiguous : Unambiguous ⟨next, before ++ x :: after⟩)
    (same : ∀ z ∈ before ++ x :: after, R z z) (id : Entry.id y = Entry.id x) (related : R x y) :
    Evolves R ⟨next, before ++ x :: after⟩ ⟨next, before ++ y :: after⟩ := by
  refine ⟨⟨UInt32.le_refl _, ids ⟨next, before ++ x :: after⟩, [], ?_, List.Sublist.refl _,
    by simp⟩, fun z hz w hw eq => ?_⟩
  · simp only [ids_split, List.append_nil, id]
  · rcases mem_replace hw with rfl | old
    · obtain rfl := unambiguous.eq_of_id hz (by simp) (eq.symm.trans id)
      exact related
    · obtain rfl := unambiguous.eq_of_id old hz eq
      exact same w old

/-- A step evolves a directory if what it does to an entry is allowed. -/
lemma Step.evolves [LawfulEntry α] {made : α → Prop} {inner : α → α → Prop}
    (unambiguous : d.Unambiguous) (same : ∀ x ∈ d.entries, R x x)
    (rename : ∀ x ∈ d.entries, ∀ n, R x (Entry.rename x n))
    (inside : ∀ x ∈ d.entries, ∀ y, inner x y → R x y) (step : Step made inner d d') :
    d.Evolves R d' := by
  cases step with
  | same => exact .refl unambiguous same
  | @create _ x _ isNext fits _ _ =>
    -- the new entry has an id that none had, so it is related to none
    have above := unambiguous.lt_of_isNext isNext
    have le := (le_of_isNext isNext).1
    refine ⟨⟨?_, d.ids, [Entry.id x], by simp [ids], List.Sublist.refl _, by simpa using le⟩,
      fun y hy z hz eq => ?_⟩
    · exact UInt32.le_trans le (UInt32.le_of_lt (lt_of_fits fits))
    · rcases List.mem_append.mp hz with mem | mem
      · obtain rfl := unambiguous.eq_of_id mem hy eq
        exact same z mem
      · obtain rfl := List.mem_singleton.mp mem
        exact absurd eq.symm (UInt32.ne_of_lt (above y hy))
  | @rename next before x after n _ _ =>
    exact evolves_replace unambiguous same (LawfulEntry.id_rename x n) (rename x (by simp) n)
  | @delete next before x after =>
    have fewer := sublist_remove before after x
    refine ⟨⟨UInt32.le_refl _, ids ⟨next, before ++ after⟩, [], by simp, fewer.map _, by simp⟩,
      fun y hy z hz eq => ?_⟩
    obtain rfl := unambiguous.eq_of_id (fewer.subset hz) hy eq
    exact same z hy
  | @update next before x y after changed id _ =>
    exact evolves_replace unambiguous same id (inside x (by simp) y changed)

/-! ### Giving out ids -/

/-- A new entry has the id of the counter, or one where that is zero, and the counter goes up. -/
def Gains (make : UInt32 → α) (d d' : Directory α) : Prop :=
  ∃ id : UInt32, id.toNat = max 1 d.next.toNat ∧ d'.next.toNat = id.toNat + 1
    ∧ d'.entries = d.entries ++ [make id]

/-- The counter is at its limit. -/
def IsFull (d : Directory α) : Prop :=
  d.next.toNat + 1 = UInt32.size

/-- A new entry may be called so. -/
def Admits (d : Directory α) (n : Naming) : Prop :=
  (∀ t ∈ n.all, ValidName t ∧ d.IsFree t) ∧ n.all.Nodup

instance (d : Directory α) (n : Naming) : Decidable (d.Admits n) :=
  inferInstanceAs (Decidable ((∀ t ∈ n.all, ValidName t ∧ d.IsFree t) ∧ n.all.Nodup))

variable {scope : Scope} {make : UInt32 → Naming → α} {n : Naming}

/-- Creating gains an entry. -/
lemma create_gains (created : create scope make n d = .ok d') : Gains (make · n) d d' := by
  obtain ⟨-, -, id, isNext, fits, rfl⟩ := create_eq_ok.mp created
  have one : (1 : UInt32).toNat = 1 := rfl
  refine ⟨id, toNat_of_isNext isNext, ?_, rfl⟩
  rw [UInt32.toNat_add, one]
  exact Nat.mod_eq_of_lt fits

omit [Entry α] in
/-- A full directory gains nothing. -/
lemma IsFull.not_gains {make : UInt32 → α} (full : d.IsFull) : ¬ Gains make d d' := by
  rintro ⟨id, isNext, next, -⟩
  have lt := d'.next.toNat_lt_size
  have atLimit : d.next.toNat + 1 = UInt32.size := full
  omega

/-- Where the counter is at its limit, creating is refused for that alone. -/
lemma IsFull.create (full : d.IsFull) (admits : d.Admits n) :
    create scope make n d = .error (.invalid (.idsExhausted scope)) := by
  obtain ⟨free, nodup⟩ := admits
  have valid : validateNaming scope n = .ok () := by
    simp only [validateNaming, Except.bind_eq_ok, validateName_eq_ok, forM_eq_ok, exists_const]
    exact ⟨(free n.name (by simp [Naming.all])).1,
      fun t mem => (free t (List.mem_cons_of_mem _ mem)).1⟩
  have new : ensureNew scope d n.all = .ok () := ensureNew_eq_ok.mpr fun t mem => (free t mem).2
  have unrepeated : ensureUnrepeated scope [n.name] n.aliases = .ok () := by
    rw [ensureUnrepeated_eq_ok]
    exact (fresh_cons.mp (fresh_nil_left.mpr nodup)).2
  have none : d.allocate scope = .error (.invalid (.idsExhausted scope)) := by
    have atLimit : d.next.toNat + 1 = UInt32.size := full
    have pos : d.next ≠ 0 := by
      intro zero
      simp [zero, UInt32.size] at atLimit
    simp [allocate, pos, atLimit]
  simp [Directory.create, valid, new, unrepeated, none, Except.mapError, bind, Except.bind]

end Directory

/-! ## Catalogs -/

/-- How a metric may look after some changes: its fields evolve and keep their types. -/
def Metric.Evolves (m m' : Metric) : Prop :=
  m.fields.Evolves (fun f f' => f'.type = f.type) m'.fields

/-- A metric with the same fields evolves. -/
lemma Metric.Evolves.of_eq {m m' : Metric} (unambiguous : m.fields.Unambiguous)
    (eq : m'.fields = m.fields) : m.Evolves m' := by
  rw [Metric.Evolves, eq]
  exact .refl unambiguous fun _ _ => rfl

/-- A step evolves a metric. -/
lemma Metric.Step.evolves {m m' : Metric} (unambiguous : m.fields.Unambiguous)
    (step : m.Step m') : m.Evolves m' := by
  obtain ⟨fields, step, rfl⟩ := step
  exact step.evolves unambiguous (fun _ _ => rfl) (fun _ _ _ => rfl) fun _ _ _ => False.elim

namespace Schema

variable {s s' s'' : Schema}

/-- How a catalog may look after some changes. -/
def Evolves (s s' : Schema) : Prop :=
  s.metrics.Evolves Metric.Evolves s'.metrics

/-- A catalog with the same metrics evolves. -/
lemma Evolves.of_eq (unambiguous : s.Unambiguous) (eq : s'.metrics = s.metrics) : s.Evolves s' := by
  rw [Evolves, eq]
  exact .refl unambiguous.1 fun m mem => .of_eq (unambiguous.2 m mem) rfl

/-- What evolves twice evolves. -/
lemma Evolves.trans (unambiguous : s.Unambiguous) (first : s.Evolves s')
    (second : s'.Evolves s'') : s.Evolves s'' := by
  refine Directory.Evolves.trans unambiguous.1 (fun m mem m' _ m'' _ => ?_) first second
  exact Directory.Evolves.trans (unambiguous.2 m mem) fun _ _ _ _ _ _ eq eq' => eq'.trans eq

/-- A step evolves a catalog. -/
lemma Step.evolves (unambiguous : s.Unambiguous) (step : Step s s') : s.Evolves s' := by
  cases step with
  | keys => exact .of_eq unambiguous rfl
  | formats => exact .of_eq unambiguous rfl
  | metrics step =>
    refine Directory.Step.evolves unambiguous.1 ?_ ?_ ?_ step
    · exact fun m mem => .of_eq (unambiguous.2 m mem) rfl
    · exact fun m mem n => .of_eq (unambiguous.2 m mem) rfl
    · exact fun m mem m' inside => inside.evolves (unambiguous.2 m mem)

/-! ## Histories -/

/-- The catalog has a metric with an id. -/
def HasMetric (s : Schema) (metric : UInt32) : Prop :=
  metric ∈ s.metrics.ids

instance (s : Schema) (metric : UInt32) : Decidable (s.HasMetric metric) :=
  inferInstanceAs (Decidable (metric ∈ s.metrics.ids))

/-- The catalog has a metric with an id, and in it a field with an id. -/
def HasField (s : Schema) (metric field : UInt32) : Prop :=
  ∃ m ∈ s.metrics.entries, m.id = metric ∧ field ∈ m.fields.ids

/-- A metric that is there again, or still, was there in between unless its id is a later one. -/
lemma hasMetric_between (before : s.Evolves s') (after : s'.Evolves s'') {x : UInt32}
    (has : s''.HasMetric x) : s.metrics.next ≤ x ∨ s'.HasMetric x := by
  refine (after.extend.mem_ids has).symm.imp (fun le => ?_) id
  exact UInt32.le_trans before.extend.1 le

/-- A field that is there again, or still, was there in between unless the id of its metric or its
own is a later one. -/
lemma hasField_between (before : s.Evolves s') (after : s'.Evolves s'') {x y : UInt32}
    (has : s''.HasField x y) :
    s.metrics.next ≤ x ∨ (∃ m ∈ s.metrics.entries, m.id = x ∧ m.fields.next ≤ y)
      ∨ s'.HasField x y := by
  obtain ⟨m'', mem'', rfl, has⟩ := has
  rcases hasMetric_between before after (Directory.mem_ids mem'') with late | between
  · exact .inl late
  obtain ⟨m', mem', eq'⟩ := List.mem_map.mp between
  rcases before.extend.mem_ids between with old | late
  case inr => exact .inl late
  obtain ⟨m, mem, eq⟩ := List.mem_map.mp old
  have first := (before.keeps m mem m' mem' (eq'.trans eq.symm)).extend
  have second := (after.keeps m' mem' m'' mem'' eq'.symm).extend
  rcases second.mem_ids has with kept | late
  · exact .inr (.inr ⟨m', mem', eq', kept⟩)
  · exact .inr (.inl ⟨m, mem, eq, UInt32.le_trans first.1 late⟩)

/-- A catalog becomes another by a change, or by being written out and read again. -/
inductive Becomes : Schema → Schema → Prop where
  | change {s s' : Schema} {m : Mutation} : s.apply m = .ok s' → Becomes s s'
  | reread {s s' : Schema} : Schema.decode s.encode = .ok s' → Becomes s s'

/-- What a catalog becomes it evolves to, and it stays unambiguous. -/
lemma Becomes.evolves (unambiguous : s.Unambiguous) (becomes : Becomes s s') :
    s'.Unambiguous ∧ s.Evolves s' := by
  cases becomes with
  | change changed =>
    obtain ⟨edited, after⟩ := apply_eq_ok.mp changed
    exact ⟨after, (edit_step edited).evolves unambiguous⟩
  | reread decoded =>
    rw [decode_encode (check_eq_ok.mpr unambiguous)] at decoded
    obtain rfl := Except.ok.inj decoded
    exact ⟨unambiguous, .of_eq unambiguous rfl⟩

/-- In a history, a catalog becomes the next one. -/
lemma becomes_of_history {history : List Schema} (run : history.IsChain Becomes) {i : ℕ}
    (here : history[i]? = some s) (next : history[i + 1]? = some s') : Becomes s s' := by
  obtain ⟨lt, rfl⟩ := List.getElem?_eq_some_iff.mp next
  obtain ⟨_, rfl⟩ := List.getElem?_eq_some_iff.mp here
  exact List.isChain_iff_getElem.mp run i lt

/-- A history that starts unambiguous stays so. -/
lemma unambiguous_of_history {history : List Schema} (run : history.IsChain Becomes)
    (start : ∀ s ∈ history.head?, s.Unambiguous) {i : ℕ} (here : history[i]? = some s) :
    s.Unambiguous := by
  induction i generalizing s with
  | zero => exact start s (by rwa [List.head?_eq_getElem?])
  | succ i ih =>
    obtain ⟨lt, rfl⟩ := List.getElem?_eq_some_iff.mp here
    have before : history[i]? = some history[i] := List.getElem?_eq_getElem (by omega)
    exact ((becomes_of_history run before here).evolves (ih before)).1

/-- Over any stretch of a history a catalog evolves. -/
lemma evolves_of_history {history : List Schema} (run : history.IsChain Becomes)
    (start : ∀ s ∈ history.head?, s.Unambiguous) {i j : ℕ} (le : i ≤ j)
    (here : history[i]? = some s) (there : history[j]? = some s') : s.Evolves s' := by
  have unambiguous := unambiguous_of_history run start here
  -- on the later point: the catalog before it has evolved already, and makes one step more
  induction j, le using Nat.le_induction generalizing s' with
  | base =>
    obtain rfl := Option.some.inj (here.symm.trans there)
    exact .of_eq unambiguous rfl
  | succ j _ ih =>
    obtain ⟨lt, rfl⟩ := List.getElem?_eq_some_iff.mp there
    have before : history[j]? = some history[j] := List.getElem?_eq_getElem (by omega)
    have step := becomes_of_history run before there
    exact (ih before).trans unambiguous
      (step.evolves (unambiguous_of_history run start before)).2

/-! ## Creating -/

/-- Creating a metric gains it. -/
lemma createMetric_gains {name : String} {aliases : List String}
    (changed : s.apply (.createMetric name aliases) = .ok s') :
    Directory.Gains (fun id => ⟨id, ⟨name, aliases⟩, .empty⟩) s.metrics s'.metrics := by
  have edited := (apply_eq_ok.mp changed).1
  simp only [edit, changeMetrics, Except.bind_eq_ok, Except.pure_eq_ok] at edited
  obtain ⟨metrics, created, rfl⟩ := edited
  exact Directory.create_gains created

/-- Where no id is left for a metric, creating one is refused for that alone. -/
lemma createMetric_full {name : String} {aliases : List String} (full : s.metrics.IsFull)
    (admits : s.metrics.Admits ⟨name, aliases⟩) :
    s.apply (.createMetric name aliases) = .error (.invalid (.idsExhausted .metrics)) := by
  simp [apply, edit, changeMetrics, full.create admits, bind, Except.bind]

/-- A metric that is found can be required. -/
lemma require_of_metric? {reference : String} {m : Metric} (found : s.metric? reference = some m) :
    ∃ l, s.metrics.require .metrics reference = .ok l ∧ l.it = m := by
  simp only [metric?, Directory.find?, Option.map_eq_some_iff] at found
  obtain ⟨l, located, rfl⟩ := found
  exact ⟨l, by simp [Directory.require, located], rfl⟩

/-- Creating a field gains it. -/
lemma createField_gains {reference name : String} {type : FieldType} {aliases : List String}
    {m : Metric} (found : s.metric? reference = some m)
    (changed : s.apply (.createField reference name type aliases) = .ok s') :
    ∃ m' ∈ s'.metrics.entries, m'.id = m.id
      ∧ Directory.Gains (fun id => ⟨id, ⟨name, aliases⟩, type⟩) m.fields m'.fields := by
  obtain ⟨l, required, rfl⟩ := require_of_metric? found
  have edited := (apply_eq_ok.mp changed).1
  simp only [edit, changeFields_eq_ok, required] at edited
  obtain ⟨_, fields, ⟨⟩, created, rfl⟩ := edited
  exact ⟨{ l.it with fields := fields }, by simp [Located.replace], rfl,
    Directory.create_gains created⟩

/-- Where no id is left for a field, creating one is refused for that alone. -/
lemma createField_full {reference name : String} {type : FieldType} {aliases : List String}
    {m : Metric} (found : s.metric? reference = some m) (full : m.fields.IsFull)
    (admits : m.fields.Admits ⟨name, aliases⟩) :
    s.apply (.createField reference name type aliases)
      = .error (.invalid (.idsExhausted m.scope)) := by
  obtain ⟨l, required, rfl⟩ := require_of_metric? found
  simp [apply, edit, changeFields, changeMetrics, Directory.update, required, full.create admits,
    bind, Except.bind]

/-! ## The main result -/

/-- What stays as it was from one catalog to a later one, where `between` tells the catalogs from
the one to the other, these two among them. -/
structure Permanent (between : Schema → Prop) (s s' : Schema) : Prop where
  /-- The counter of the metrics does not go down, and those that are left keep their order. -/
  metrics : s.metrics.Extends s'.metrics
  /-- So it is with the fields of a metric that is left. -/
  fields : ∀ m ∈ s.metrics.entries, ∀ m' ∈ s'.metrics.entries, m'.id = m.id →
    m.fields.Extends m'.fields
  /-- A field that is left has the type it had. -/
  types : ∀ m ∈ s.metrics.entries, ∀ m' ∈ s'.metrics.entries, m'.id = m.id →
    ∀ f ∈ m.fields.entries, ∀ f' ∈ m'.fields.entries, f'.id = f.id → f'.type = f.type
  /-- A metric was there all the time, or its id was given out since. -/
  metric_present : ∀ x, s'.HasMetric x →
    s.metrics.next ≤ x ∨ ∀ t, between t → t.HasMetric x
  /-- A field was there all the time, or its id or that of its metric was given out since. -/
  field_present : ∀ x y, s'.HasField x y →
    s.metrics.next ≤ x ∨ (∃ m ∈ s.metrics.entries, m.id = x ∧ m.fields.next ≤ y)
      ∨ ∀ t, between t → t.HasField x y
  /-- The id of a metric that is gone stands for none again. -/
  metric_gone : ∀ t, between t → ∀ x, s.HasMetric x → ¬ t.HasMetric x → ¬ s'.HasMetric x
  /-- The id of a field that is gone stands for none again. -/
  field_gone : ∀ t, between t → ∀ x y, s.HasField x y → ¬ t.HasField x y → ¬ s'.HasField x y

/-- How a catalog gives out ids: the next one while there is one, and none at the limit. -/
structure Allocates (s : Schema) : Prop where
  /-- A new metric gets the next id. -/
  metric : ∀ name aliases t, s.apply (.createMetric name aliases) = .ok t →
    Directory.Gains (fun id => ⟨id, ⟨name, aliases⟩, .empty⟩) s.metrics t.metrics
  /-- A new field gets the next id of its metric. -/
  field : ∀ reference m name type aliases t, s.metric? reference = some m →
    s.apply (.createField reference name type aliases) = .ok t →
    ∃ m' ∈ t.metrics.entries, m'.id = m.id
      ∧ Directory.Gains (fun id => ⟨id, ⟨name, aliases⟩, type⟩) m.fields m'.fields
  /-- At the limit no metric is created, and one that could be named so is refused for that. -/
  metric_full : s.metrics.IsFull → ∀ name aliases,
    (∀ t, s.apply (.createMetric name aliases) ≠ .ok t)
      ∧ (s.metrics.Admits ⟨name, aliases⟩ →
        s.apply (.createMetric name aliases) = .error (.invalid (.idsExhausted .metrics)))
  /-- At the limit of a metric no field is created, and one that could be named so is refused for
  that. -/
  field_full : ∀ reference m, s.metric? reference = some m → m.fields.IsFull →
    ∀ name type aliases, (∀ t, s.apply (.createField reference name type aliases) ≠ .ok t)
      ∧ (m.fields.Admits ⟨name, aliases⟩ →
        s.apply (.createField reference name type aliases)
          = .error (.invalid (.idsExhausted m.scope)))

/-- Every catalog gives out the next ids up to the limit. -/
lemma allocates (s : Schema) : s.Allocates where
  metric _ _ _ := createMetric_gains
  field _ _ _ _ _ _ := createField_gains
  metric_full full _ _ :=
    ⟨fun _ changed => full.not_gains (createMetric_gains changed), createMetric_full full⟩
  field_full _ _ found full _ _ _ := by
    refine ⟨fun t changed => ?_, createField_full found full⟩
    obtain ⟨m', -, -, gains⟩ := createField_gains found changed
    exact full.not_gains gains

/-- A catalog keeps what is permanent where it evolves into and from everything in between. -/
lemma Evolves.permanent {between : Schema → Prop} (unambiguous : s.Unambiguous)
    (evolves : s.Evolves s') (within : ∀ t, between t → s.Evolves t ∧ t.Evolves s') :
    Permanent between s s' := by
  have metric : ∀ x, s'.HasMetric x → s.metrics.next ≤ x ∨ ∀ t, between t → t.HasMetric x := by
    intro x has
    by_cases late : s.metrics.next ≤ x
    · exact .inl late
    · exact .inr fun t mem =>
        (hasMetric_between (within t mem).1 (within t mem).2 has).resolve_left late
  have field : ∀ x y, s'.HasField x y →
      s.metrics.next ≤ x ∨ (∃ m ∈ s.metrics.entries, m.id = x ∧ m.fields.next ≤ y)
        ∨ ∀ t, between t → t.HasField x y := by
    intro x y has
    by_cases late : s.metrics.next ≤ x
    · exact .inl late
    by_cases lateInside : ∃ m ∈ s.metrics.entries, m.id = x ∧ m.fields.next ≤ y
    · exact .inr (.inl lateInside)
    · exact .inr (.inr fun t mem =>
        ((hasField_between (within t mem).1 (within t mem).2 has).resolve_left late).resolve_left
          lateInside)
  refine ⟨evolves.extend, fun m mem m' mem' eq => (evolves.keeps m mem m' mem' eq).extend,
    fun m mem m' mem' eq => (evolves.keeps m mem m' mem' eq).keeps, metric, field, ?_, ?_⟩
  -- an id that was there is below the counter, so it must have been there all the time
  · intro t mem x old gone again
    obtain ⟨m, mmem, rfl⟩ := List.mem_map.mp old
    rcases metric _ again with late | always
    · exact UInt32.not_le.mpr (unambiguous.1.ids_lt m mmem) late
    · exact gone (always t mem)
  · rintro t mem x y ⟨m, mmem, rfl, old⟩ gone again
    obtain ⟨f, fmem, rfl⟩ := List.mem_map.mp old
    rcases field _ _ again with late | ⟨n, nmem, eq, late⟩ | always
    · exact UInt32.not_le.mpr (unambiguous.1.ids_lt m mmem) late
    · obtain rfl := unambiguous.1.eq_of_id nmem mmem eq
      exact UInt32.not_le.mpr ((unambiguous.2 n nmem).ids_lt f fmem) late
    · exact gone (always t mem)

/-- Between any two points of a history that starts with a sound catalog ids stand for what they
stood for, and at every point the next ones are given out up to the limit. -/
theorem identity_permanent {history : List Schema} (run : history.IsChain Becomes)
    (start : ∀ s ∈ history.head?, s.check = .ok ()) {i j : ℕ} (le : i ≤ j)
    (here : history[i]? = some s) (there : history[j]? = some s') :
    Permanent (fun t => ∃ k, i ≤ k ∧ k ≤ j ∧ history[k]? = some t) s s' ∧ s.Allocates := by
  replace start : ∀ s ∈ history.head?, s.Unambiguous := fun s first =>
    check_eq_ok.mp (start s first)
  refine ⟨?_, s.allocates⟩
  refine (evolves_of_history run start le here there).permanent
    (unambiguous_of_history run start here) ?_
  rintro t ⟨k, above, below, between⟩
  exact ⟨evolves_of_history run start above here between,
    evolves_of_history run start below between there⟩

/-- A metric is removed, the document is read again, and another metric gets the name and the last
id there is. -/
def recreation : List Schema :=
  [⟨⟨"acme", [], []⟩, ⟨4294967294, [⟨7, ⟨"clicks", ["hits"]⟩, ⟨2, [⟨1, ⟨"at", []⟩, .string⟩]⟩⟩]⟩⟩,
    ⟨⟨"acme", [], []⟩, ⟨4294967294, []⟩⟩,
    ⟨⟨"acme", [], []⟩, ⟨4294967294, []⟩⟩,
    ⟨⟨"acme", [], []⟩, ⟨4294967295, [⟨4294967294, ⟨"clicks", []⟩, .empty⟩]⟩⟩]

/-- In that history the old id names no metric, and no third metric is created. -/
theorem recreation_permanent :
    recreation.IsChain Becomes
      ∧ (∃ s s', recreation[0]? = some s ∧ recreation[3]? = some s' ∧ ¬ s'.HasMetric 7
        ∧ Permanent (fun t => ∃ k, 0 ≤ k ∧ k ≤ 3 ∧ recreation[k]? = some t) s s')
      ∧ ∃ s, recreation[3]? = some s ∧ s.metrics.IsFull
        ∧ s.apply (.createMetric "views" []) = .error (.invalid (.idsExhausted .metrics)) := by
  have run : recreation.IsChain Becomes := by
    refine .cons_cons (.change (m := .deleteMetric "hits") (by decide +kernel)) ?_
    refine .cons_cons (.reread (by decide +kernel)) ?_
    refine .cons_cons (.change (m := .createMetric "clicks" []) (by decide +kernel)) ?_
    exact .singleton _
  have start : ∀ s ∈ recreation.head?, s.check = .ok () := by
    rintro s ⟨⟩
    decide +kernel
  have permanent := (identity_permanent run start (show 0 ≤ 3 by decide) rfl rfl).1
  refine ⟨run, ⟨_, _, rfl, rfl, ?_, permanent⟩, _, rfl, rfl, ?_⟩
  · exact permanent.metric_gone _ ⟨1, by decide, by decide, rfl⟩ 7 (by decide) (by decide)
  · have allocates := (identity_permanent run start (Nat.le_refl 3) rfl rfl).2
    exact (allocates.metric_full rfl _ _).2 (by decide +kernel)

end Schema

end MetricRegistry.Catalog
