import MetricRegistry.Proofs.Catalog.Edited

/-!
# Changes of one metric's fields and changes of another

A change of a metric's fields writes over that metric and keeps its id and its names. So an edit of
the metrics that refers to none of these names may be made before the write or after it
(`Directory.Edited.put`), and so may any change of the catalog (`Schema.Made.put`): what it refers
to resolves to the same, what it brings is free in both, and the counter is the same.
`fields_commute` concludes that the two mutations may change places in a batch.
-/

namespace MetricRegistry.Catalog

/-! ## References -/

/-- The metric that a mutation refers to by a name. -/
def Mutation.reference? : Mutation → Option String
  | .setMetricKeys _ => none
  | .setTimestampFormats _ => none
  | .createMetric _ _ => none
  | .renameMetric metric _ => some metric
  | .addMetricAlias metric _ => some metric
  | .removeMetricAlias metric _ => some metric
  | .deleteMetric metric => some metric
  | .createField metric _ _ _ => some metric
  | .renameField metric _ _ => some metric
  | .addFieldAlias metric _ _ => some metric
  | .removeFieldAlias metric _ _ => some metric
  | .deleteField metric _ => some metric

/-- A mutation of the fields of a metric. -/
def Mutation.OfFields : Mutation → Prop
  | .createField .. => True
  | .renameField .. => True
  | .addFieldAlias .. => True
  | .removeFieldAlias .. => True
  | .deleteField .. => True
  | _ => False

/-- The metric that a change refers to by a name. -/
def Change.reference? : Change → Option String
  | .keys _ => none
  | .formats _ => none
  | .metrics e => e.reference?
  | .fields metric _ => some metric

/-- A change refers to what its mutation refers to. -/
lemma Mutation.reference?_change (m : Mutation) : m.change.reference? = m.reference? := by
  cases m <;> rfl

/-- The change of a mutation of fields is an edit of the fields it refers to. -/
lemma Mutation.OfFields.change {m : Mutation} (ofFields : m.OfFields) {reference : String}
    (refers : m.reference? = some reference) : ∃ e, m.change = .fields reference e := by
  cases m with
  | createField | renameField | addFieldAlias | removeFieldAlias | deleteField =>
    obtain rfl := Option.some.inj refers
    exact ⟨_, rfl⟩
  | _ => exact ofFields.elim

/-! ## Edits beside a write -/

namespace Directory

variable {α γ : Type} [Entry α] {make : UInt32 → Naming → γ → α} {d d' : Directory α} {x y z : α}
variable {e : Edit γ} {reference : String}

/-- What has another name is found beside a write as it was. -/
lemma Unambiguous.find?_put_of_notMem (unambiguous : d.Unambiguous) (mem : x ∈ d.entries)
    (id : Entry.id y = Entry.id x) (naming : Entry.naming y = Entry.naming x)
    (elsewhere : reference ∉ (Entry.naming x).all) (found : d.find? reference = some z) :
    Entry.id z ≠ Entry.id y ∧ (d.put y).find? reference = some z := by
  obtain ⟨zmem, own⟩ := unambiguous.find?_eq_some.mp found
  have ne : Entry.id z ≠ Entry.id y := by
    intro same
    obtain rfl := unambiguous.eq_of_id zmem mem (same.trans id)
    exact elsewhere own
  refine ⟨ne, (unambiguous.unambiguous_put mem id naming).find?_eq_some.mpr ⟨?_, own⟩⟩
  exact mem_put.mpr (.inr ⟨zmem, ne⟩)

variable [LawfulEntry α]

/-- An edit that refers to another entry may be made before or after a write. -/
lemma Edited.put (lawful : ∀ id n g, Entry.id (make id n g) = id) (unambiguous : d.Unambiguous)
    (mem : x ∈ d.entries) (id : Entry.id y = Entry.id x)
    (naming : Entry.naming y = Entry.naming x)
    (elsewhere : ∀ reference, e.reference? = some reference → reference ∉ (Entry.naming x).all)
    (edited : Edited make d e d') : Edited make (d.put y) e (d'.put y) := by
  have free (t : String) : (d.put y).IsFree t ↔ d.IsFree t :=
    unambiguous.isFree_put mem id naming
  cases edited with
  | @create n g fresh new nodup isNext fits =>
    have above : Entry.id (make fresh n g) ≠ Entry.id y := by
      rw [lawful, id]
      exact (UInt32.ne_of_lt (unambiguous.lt_of_isNext isNext x mem)).symm
    have last : put ⟨fresh + 1, d.entries ++ [make fresh n g]⟩ y
        = ⟨fresh + 1, (d.put y).entries ++ [make fresh n g]⟩ := by
      simp [Directory.put, above]
    rw [last]
    exact .create (fun t own => ⟨(new t own).1, (free t).mpr (new t own).2⟩) nodup isNext fits
  | rename valid found origin =>
    obtain ⟨ne, found'⟩ := unambiguous.find?_put_of_notMem mem id naming (elsewhere _ rfl) found
    rw [put_comm (by rwa [LawfulEntry.id_rename])]
    exact .rename valid found' (origin.imp_right (free _).mpr)
  | addAlias valid found new =>
    obtain ⟨ne, found'⟩ := unambiguous.find?_put_of_notMem mem id naming (elsewhere _ rfl) found
    rw [put_comm (by rwa [LawfulEntry.id_rename])]
    exact .addAlias valid found' ((free _).mpr new)
  | removeAlias found old =>
    obtain ⟨ne, found'⟩ := unambiguous.find?_put_of_notMem mem id naming (elsewhere _ rfl) found
    rw [put_comm (by rwa [LawfulEntry.id_rename])]
    exact .removeAlias found' old
  | delete found =>
    obtain ⟨-, found'⟩ := unambiguous.find?_put_of_notMem mem id naming (elsewhere _ rfl) found
    rw [← drop_put]
    exact .delete found'

/-- An edit leaves entries alone that it does not refer to. -/
lemma Edited.mem (unambiguous : d.Unambiguous) (mem : x ∈ d.entries)
    (elsewhere : ∀ reference, e.reference? = some reference → reference ∉ (Entry.naming x).all)
    (edited : Edited make d e d') : x ∈ d'.entries := by
  have apart {reference : String} {z : α} (found : d.find? reference = some z)
      (refers : e.reference? = some reference) : Entry.id x ≠ Entry.id z := by
    intro same
    obtain ⟨zmem, own⟩ := unambiguous.find?_eq_some.mp found
    obtain rfl := unambiguous.eq_of_id mem zmem same
    exact elsewhere _ refers own
  cases edited with
  | create => exact List.mem_append_left _ mem
  | rename _ found | addAlias _ found | removeAlias found =>
    refine mem_put.mpr (.inr ⟨mem, ?_⟩)
    rw [LawfulEntry.id_rename]
    exact apart found rfl
  | delete found => exact mem_drop.mpr ⟨mem, apart found rfl⟩

end Directory

/-! ## Changes beside a write -/

namespace Schema

variable {s s' t : Schema} {c : Change} {m m' : Metric}

/-- A change that refers to another metric may be made before or after a write. -/
lemma Made.put (unambiguous : s.Unambiguous) (mem : m ∈ s.metrics.entries) (id : m'.id = m.id)
    (naming : m'.naming = m.naming)
    (elsewhere : ∀ reference, c.reference? = some reference → reference ∉ m.naming.all)
    (made : s.Made c s') : (s.put m').Made c (s'.put m') := by
  cases made with
  | keys valid nodup => exact .keys valid nodup
  | formats valid => exact .formats valid
  | metrics edited =>
    exact .metrics (edited.put (fun _ _ _ => rfl) unambiguous.1 mem id naming elsewhere)
  | @fields _ n _ fields found edited =>
    obtain ⟨ne, found'⟩ :=
      unambiguous.1.find?_put_of_notMem mem id naming (elsewhere _ rfl) found
    rw [put_comm (m := { n with fields := fields }) ne]
    exact .fields found' edited

/-- A change leaves metrics alone that it does not refer to. -/
lemma Made.mem (unambiguous : s.Unambiguous) (mem : m ∈ s.metrics.entries)
    (elsewhere : ∀ reference, c.reference? = some reference → reference ∉ m.naming.all)
    (made : s.Made c s') : m ∈ s'.metrics.entries := by
  cases made with
  | keys => exact mem
  | formats => exact mem
  | metrics edited => exact edited.mem unambiguous.1 mem elsewhere
  | @fields _ n _ _ found _ =>
    refine Directory.mem_put.mpr (.inr ⟨mem, ?_⟩)
    intro same
    obtain ⟨nmem, own⟩ := unambiguous.1.find?_eq_some.mp found
    obtain rfl := unambiguous.1.eq_of_id mem nmem same
    exact elsewhere _ rfl own

/-- Two mutations of an unambiguous catalog, one after the other, are two changes. -/
lemma applyAll_pair (unambiguous : s.Unambiguous) {a b : Mutation} :
    s.applyAll [a, b] = .ok t ↔ ∃ s₁, s.Made a.change s₁ ∧ s₁.Made b.change t := by
  rw [applyAll_cons unambiguous]
  refine exists_congr fun s₁ => and_congr_right fun first => ?_
  simp only [applyAll_cons (unambiguous.made first), applyAll_nil, exists_eq_right]

/-- A change of the fields of a metric and one that does not refer to that metric may change
places. -/
lemma applyAll_swap (unambiguous : s.Unambiguous) {a b : Mutation} {reference : String}
    {e : Edit FieldType} (fields : a.change = .fields reference e)
    (found : s.metrics.find? reference = some m)
    (elsewhere : ∀ r, b.reference? = some r → r ∉ m.naming.all) :
    s.applyAll [a, b] = .ok t ↔ s.applyAll [b, a] = .ok t := by
  obtain ⟨mem, own⟩ := unambiguous.1.find?_eq_some.mp found
  rw [← b.reference?_change] at elsewhere
  rw [applyAll_pair unambiguous, applyAll_pair unambiguous, fields]
  constructor
  · rintro ⟨s₁, first, second⟩
    have between := unambiguous.made (fields ▸ first)
    have after := between.made second
    cases first with
    | @fields _ n _ changed found' edited =>
      obtain rfl := Option.some.inj (found.symm.trans found')
      -- the second change is made of the metric as it was, which is put back for that
      have there : { m with fields := changed }
          ∈ (s.put { m with fields := changed }).metrics.entries :=
        Directory.mem_put_self mem rfl
      have left := second.mem between there elsewhere
      have early : (Schema.put _ m).Made b.change (t.put m) :=
        second.put between there rfl rfl elsewhere
      rw [unambiguous.put_back mem { m with fields := changed } rfl] at early
      have middle := unambiguous.made early
      have again : (t.put m).metrics.find? reference = some m :=
        middle.1.find?_eq_some.mpr ⟨Directory.mem_put_self left rfl, own⟩
      have late := Made.fields again edited
      rw [after.put_back left m rfl] at late
      exact ⟨t.put m, early, late⟩
  · rintro ⟨s₁, first, second⟩
    have between := unambiguous.made first
    have left := first.mem unambiguous mem elsewhere
    cases second with
    | @fields _ n _ changed found' edited =>
      obtain rfl := Option.some.inj ((between.1.find?_eq_some.mpr ⟨left, own⟩).symm.trans found')
      exact ⟨_, .fields found edited, first.put unambiguous mem rfl rfl elsewhere⟩

/-- A mutation of the fields of a metric and one that refers to another metric, or to none, may
change places: both orders succeed or neither does, and both give the same catalog. -/
theorem fields_commute (sound : s.check = .ok ()) {a b : Mutation} {reference : String}
    (ofFields : a.OfFields) (refers : a.reference? = some reference)
    (found : s.metric? reference = some m)
    (apart : ∀ r, b.reference? = some r → ∃ m', s.metric? r = some m' ∧ m' ≠ m) (t : Schema) :
    s.applyAll [a, b] = .ok t ↔ s.applyAll [b, a] = .ok t := by
  have unambiguous := check_eq_ok.mp sound
  obtain ⟨e, fields⟩ := ofFields.change refers
  refine applyAll_swap unambiguous fields found ?_
  intro r refers' own
  obtain ⟨mem, -⟩ := unambiguous.1.find?_eq_some.mp found
  obtain ⟨m', found', ne⟩ := apart r refers'
  exact ne (Option.some.inj (found'.symm.trans (unambiguous.1.find?_eq_some.mpr ⟨mem, own⟩)))

/-- A field takes a name that is an alias of another metric, and that metric takes it too. -/
theorem fields_commute_namesakes :
    let s : Schema := ⟨⟨"acme", [], []⟩, ⟨9,
      [⟨3, ⟨"clicks", []⟩, ⟨5, [⟨4, ⟨"page", []⟩, .string⟩]⟩⟩,
        ⟨7, ⟨"views", ["hits"]⟩, .empty⟩]⟩⟩
    let renameField := Mutation.renameField "clicks" "page" "hits"
    let renameMetric := Mutation.renameMetric "hits" "hits"
    ∃ t, s.applyAll [renameField, renameMetric] = .ok t
      ∧ s.applyAll [renameMetric, renameField] = .ok t := by
  intro s renameField renameMetric
  have applied : s.applyAll [renameField, renameMetric]
      = .ok ⟨⟨"acme", [], []⟩, ⟨9, [⟨3, ⟨"clicks", []⟩, ⟨5, [⟨4, ⟨"hits", []⟩, .string⟩]⟩⟩,
        ⟨7, ⟨"hits", []⟩, .empty⟩]⟩⟩ := by
    decide +kernel
  refine ⟨_, applied, (fields_commute (a := renameField) (by decide +kernel) trivial rfl rfl
    ?_ _).mp applied⟩
  intro r refers
  obtain rfl := Option.some.inj refers
  exact ⟨_, rfl, by decide⟩

end Schema

end MetricRegistry.Catalog
