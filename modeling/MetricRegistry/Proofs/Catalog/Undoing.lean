import MetricRegistry.Proofs.Catalog.Renaming

/-!
# Changes that are taken back

An edit refers to its entry by a name, in a directory that the edit before it has changed, and it
writes where it finds the entry. `Directory.Leads` says that a name leads to the entry with an id;
whatever name that is, the opposite edit finds the entry that the first one wrote and writes it back
(`addAlias_undone`, `rename_undone`, `create_undone`). This holds for metrics, and by
`Schema.takenBackWithin_of_edited` for the fields of a metric, to which any of its names may lead.
`edits_undone` says so of the mutations.
-/

namespace MetricRegistry.Catalog

namespace Directory

variable {α γ : Type} [Entry α] {make : UInt32 → Naming → γ → α}
variable {d d' : Directory α} {x : α} {n : Naming} {t handle reference : String} {i : UInt32}

/-- A name leads to the entry with an id. -/
def Leads (d : Directory α) (t : String) (i : UInt32) : Prop :=
  ∃ x, d.find? t = some x ∧ Entry.id x = i

/-- A name of an entry leads to that entry. -/
lemma Unambiguous.leads (unambiguous : d.Unambiguous) (mem : x ∈ d.entries)
    (own : t ∈ (Entry.naming x).all) : d.Leads t (Entry.id x) :=
  ⟨x, unambiguous.find?_eq_some.mpr ⟨mem, own⟩, rfl⟩

/-- What leads to an entry finds it. -/
lemma Unambiguous.find?_of_leads (unambiguous : d.Unambiguous) (mem : x ∈ d.entries)
    (leads : d.Leads t (Entry.id x)) : d.find? t = some x := by
  obtain ⟨y, found, same⟩ := leads
  obtain ⟨ymem, -⟩ := unambiguous.find?_eq_some.mp found
  rw [found, unambiguous.eq_of_id ymem mem same]

variable [NamedEntry α]

/-- An entry that gets its own naming back is what it was. -/
lemma Unambiguous.calling_back (unambiguous : d.Unambiguous) (mem : x ∈ d.entries) :
    (d.calling x n).calling (Entry.rename x n) (Entry.naming x) = d :=
  calling_calling.trans (unambiguous.calling_naming mem)

/-- An entry under another naming is found by all names that lead to it. -/
lemma Unambiguous.find?_calling (unambiguous : (d.calling x n).Unambiguous) (mem : x ∈ d.entries)
    (leads : (d.calling x n).Leads handle (Entry.id x)) :
    (d.calling x n).find? handle = some (Entry.rename x n) := by
  rw [← LawfulEntry.id_rename x n] at leads
  exact unambiguous.find?_of_leads (mem_calling mem) leads

/-- A name an entry is given leads to that entry. -/
lemma Unambiguous.leads_calling (unambiguous : (d.calling x n).Unambiguous) (mem : x ∈ d.entries)
    (own : t ∈ n.all) : (d.calling x n).Leads t (Entry.id x) := by
  rw [← LawfulEntry.id_rename x n]
  exact unambiguous.leads (mem_calling mem) (by rwa [LawfulEntry.naming_rename])

section Undone

variable (lawful : ∀ id n g, Entry.id (make id n g) = id ∧ Entry.naming (make id n g) = n)
include lawful

/-- An alias that was added is the last of the list, and the removal takes it from there. -/
lemma addAlias_undone (unambiguous : d.Unambiguous) (found : d.find? reference = some x)
    (added : Edited make d (.addAlias reference t) d') :
    d'.Leads t (Entry.id x)
      ∧ ∀ handle, d'.Leads handle (Entry.id x) → Edited make d' (.removeAlias handle t) d := by
  have unambiguous' := unambiguous.edited lawful added
  cases added with
  | addAlias _ found' free =>
    obtain rfl := Option.some.inj (found.symm.trans found')
    obtain ⟨mem, -⟩ := unambiguous.find?_eq_some.mp found
    refine ⟨unambiguous'.leads_calling mem (by simp [Naming.all]), fun handle leads => ?_⟩
    have old : t ∉ (Entry.naming x).aliases := fun own =>
      free x mem (List.mem_cons_of_mem _ own)
    have removed : Edited make _ (.removeAlias handle t) _ :=
      .removeAlias (unambiguous'.find?_calling mem leads) (by simp)
    rw [LawfulEntry.naming_rename, List.erase_append_right _ old, List.erase_cons_head,
      List.append_nil] at removed
    exact (congrArg (Edited make _ _) (unambiguous.calling_back mem)).mp removed

/-- A new name that was no alias leaves the aliases as they were, so the old name may come back. -/
lemma rename_undone (unambiguous : d.Unambiguous) (found : d.find? reference = some x)
    (new : t ∉ (Entry.naming x).aliases) (valid : ValidName (Entry.naming x).name)
    (renamed : Edited make d (.rename reference t) d') :
    d'.Leads t (Entry.id x) ∧ ∀ handle, d'.Leads handle (Entry.id x) →
      Edited make d' (.rename handle (Entry.naming x).name) d := by
  have unambiguous' := unambiguous.edited lawful renamed
  cases renamed with
  | rename _ found' _ =>
    obtain rfl := Option.some.inj (found.symm.trans found')
    obtain ⟨mem, -⟩ := unambiguous.find?_eq_some.mp found
    refine ⟨unambiguous'.leads_calling mem List.mem_cons_self, fun handle leads => ?_⟩
    rw [List.erase_of_not_mem new] at unambiguous' leads ⊢
    -- the old name is the new one again, or free since no other entry bears it
    have origin : (Entry.naming x).name ∈ Naming.all ⟨t, (Entry.naming x).aliases⟩
        ∨ (d.calling x ⟨t, (Entry.naming x).aliases⟩).IsFree (Entry.naming x).name := by
      by_cases own : (Entry.naming x).name ∈ Naming.all ⟨t, (Entry.naming x).aliases⟩
      · exact .inl own
      · refine .inr ((isFree_calling mem).mpr ⟨own, fun z zmem ne also => ?_⟩)
        exact ne (congrArg Entry.id (unambiguous.eq_of_name zmem mem also List.mem_cons_self))
    have back : Edited make _ (.rename handle (Entry.naming x).name) _ :=
      .rename valid (unambiguous'.find?_calling mem leads)
        (by rwa [LawfulEntry.naming_rename])
    rw [LawfulEntry.naming_rename, unambiguous.erase_name mem] at back
    exact (congrArg (Edited make _ _) (unambiguous.calling_back mem)).mp back

/-- A new entry goes by any of its names, and nothing but the counter tells of it. -/
lemma create_undone {g : γ} (unambiguous : d.Unambiguous)
    (created : Edited make d (.create n g) d') :
    ∃ y, (Entry.id y + 1).toNat = (Entry.id y).toNat + 1
      ∧ ∀ t ∈ n.all, d'.find? t = some y ∧ d'.Leads t (Entry.id y)
        ∧ ∀ handle, d'.Leads handle (Entry.id y) →
          Edited make d' (.delete handle) ⟨Entry.id y + 1, d.entries⟩ := by
  have unambiguous' := unambiguous.edited lawful created
  cases created with
  | @create _ _ id _ _ isNext fits =>
    obtain ⟨sameId, sameNaming⟩ := lawful id n g
    have mem : make id n g ∈ d.entries ++ [make id n g] := by simp
    have others : ∀ z ∈ d.entries, Entry.id z ≠ id := fun z zmem =>
      UInt32.ne_of_lt (unambiguous.lt_of_isNext isNext z zmem)
    have dropped : drop ⟨id + 1, d.entries ++ [make id n g]⟩ id = ⟨id + 1, d.entries⟩ := by
      simpa [drop, List.filter_append, sameId] using others
    refine ⟨make id n g, ?_, fun t own => ⟨?_, ?_, fun handle leads => ?_⟩⟩
    · rw [sameId, UInt32.toNat_add]
      exact Nat.mod_eq_of_lt fits
    · exact unambiguous'.find?_eq_some.mpr ⟨mem, by rwa [sameNaming]⟩
    · exact unambiguous'.leads mem (by rwa [sameNaming])
    · have deleted : Edited make _ (.delete handle) _ :=
        .delete (unambiguous'.find?_of_leads mem leads)
      rw [sameId, dropped] at deleted
      exact sameId.symm ▸ deleted

end Undone

end Directory

namespace Schema

variable {s s' t : Schema} {m : Metric} {i j : UInt32} {metric name : String}

/-- A metric answers to a name, and by whatever name it is referred to, a mutation gives back a
catalog. -/
structure TakenBack (s' s : Schema) (i : UInt32) (name : String) (undo : String → Mutation) :
    Prop where
  leads : s'.metrics.Leads name i
  restores : ∀ handle, s'.metrics.Leads handle i → s'.apply (undo handle) = .ok s

/-- Two names lead to a field of a metric, which are given by their ids. -/
def LeadsWithin (s : Schema) (metric name : String) (i j : UInt32) : Prop :=
  ∃ m, s.metric? metric = some m ∧ m.id = i ∧ m.fields.Leads name j

/-- A field answers to a name, and by whatever names it and its metric are referred to, a mutation
gives back a catalog. -/
structure TakenBackWithin (s' s : Schema) (i j : UInt32) (metric name : String)
    (undo : String → String → Mutation) : Prop where
  leads : s'.LeadsWithin metric name i j
  restores : ∀ metric handle, s'.LeadsWithin metric handle i j →
    s'.apply (undo metric handle) = .ok s

/-- A change of the metrics is taken back through any name of the one that was changed. -/
lemma takenBack_of_edited {metrics metrics' : Directory Metric} {undo : String → Mutation}
    {e : String → Edit (Index FieldType)}
    (unambiguous : ({ s with metrics := metrics } : Schema).Unambiguous)
    (change : ∀ handle, (undo handle).change = .metrics (e handle))
    (back : metrics.Leads name i ∧ ∀ handle, metrics.Leads handle i →
      metrics.Edited Metric.created (e handle) metrics') :
    TakenBack { s with metrics := metrics } { s with metrics := metrics' } i name undo where
  leads := back.1
  restores handle leads := by
    rw [apply_eq_ok_iff_made unambiguous, change]
    exact .metrics (back.2 handle leads)

/-- The fields of a metric are found by any of its names, also after they were changed. -/
lemma takenBackWithin_of_edited {fields fields' : Directory Field}
    {undo : String → String → Mutation} {e : String → Edit FieldType}
    (unambiguous : s.Unambiguous) (found : s.metric? metric = some m)
    (unambiguous' : (s.put { m with fields := fields }).Unambiguous)
    (change : ∀ metric handle, (undo metric handle).change = .fields metric (e handle))
    (back : fields.Leads name j ∧ ∀ handle, fields.Leads handle j →
      fields.Edited Field.created (e handle) fields') :
    TakenBackWithin (s.put { m with fields := fields }) (s.put { m with fields := fields' })
      m.id j metric name undo := by
  obtain ⟨mem, own⟩ := unambiguous.1.find?_eq_some.mp found
  have there : { m with fields := fields }
      ∈ (s.put { m with fields := fields }).metrics.entries := Directory.mem_put_self mem rfl
  constructor
  · exact ⟨_, unambiguous'.1.find?_eq_some.mpr ⟨there, own⟩, rfl, back.1⟩
  · rintro reference handle ⟨m', found', same, leads⟩
    obtain ⟨mem', -⟩ := unambiguous'.1.find?_eq_some.mp found'
    obtain rfl := unambiguous'.1.eq_of_id mem' there same
    have made := Made.fields found' (back.2 handle leads)
    have once : (s.put { m with fields := fields }).put { m with fields := fields' }
        = s.put { m with fields := fields' } := put_put rfl
    rw [apply_eq_ok_iff_made unambiguous', change, ← once]
    exact made

/-- What was made of the metrics. -/
lemma metrics_of_apply {a : Mutation} {e : Edit (Index FieldType)} (unambiguous : s.Unambiguous)
    (change : a.change = .metrics e) (applied : s.apply a = .ok s') :
    ∃ metrics, s.metrics.Edited Metric.created e metrics ∧ s' = { s with metrics := metrics }
      ∧ s'.Unambiguous := by
  have made := (apply_eq_ok_iff_made unambiguous).mp applied
  have unambiguous' := unambiguous.made made
  rw [change] at made
  cases made with
  | metrics edited => exact ⟨_, edited, rfl, unambiguous'⟩

/-- What was made of the fields of a metric. -/
lemma fields_of_apply {a : Mutation} {e : Edit FieldType} (unambiguous : s.Unambiguous)
    (found : s.metric? metric = some m) (change : a.change = .fields metric e)
    (applied : s.apply a = .ok s') :
    ∃ fields, m.fields.Edited Field.created e fields ∧ s' = s.put { m with fields := fields }
      ∧ s'.Unambiguous := by
  have made := (apply_eq_ok_iff_made unambiguous).mp applied
  have unambiguous' := unambiguous.made made
  rw [change] at made
  cases made with
  | fields found' edited =>
    obtain rfl := Option.some.inj (found.symm.trans found')
    exact ⟨_, edited, rfl, unambiguous'⟩

/-- An added alias may be removed, a new name that was no alias be replaced by the old one, and a
new metric or field be deleted, each by any name that leads there, and the catalog is what it was
before, but for the counter that an id was taken from. -/
theorem edits_undone (sound : s.check = .ok ()) :
    (∀ reference t m, s.metric? reference = some m →
        s.apply (.addMetricAlias reference t) = .ok s' →
        TakenBack s' s m.id t fun handle => .removeMetricAlias handle t)
      ∧ (∀ metric reference t m f, s.metric? metric = some m → m.field? reference = some f →
        s.apply (.addFieldAlias metric reference t) = .ok s' →
        TakenBackWithin s' s m.id f.id metric t fun metric handle =>
          .removeFieldAlias metric handle t)
      ∧ (∀ reference t m, s.metric? reference = some m → t ∉ m.naming.aliases →
        ValidName m.naming.name → s.apply (.renameMetric reference t) = .ok s' →
        TakenBack s' s m.id t fun handle => .renameMetric handle m.naming.name)
      ∧ (∀ metric reference t m f, s.metric? metric = some m → m.field? reference = some f →
        t ∉ f.naming.aliases → ValidName f.naming.name →
        s.apply (.renameField metric reference t) = .ok s' →
        TakenBackWithin s' s m.id f.id metric t fun metric handle =>
          .renameField metric handle f.naming.name)
      ∧ (∀ name aliases, s.apply (.createMetric name aliases) = .ok s' →
        ∃ m, s'.metric? name = some m ∧ (m.id + 1).toNat = m.id.toNat + 1
          ∧ ∀ t ∈ name :: aliases,
            TakenBack s' { s with metrics := ⟨m.id + 1, s.metrics.entries⟩ } m.id t .deleteMetric)
      ∧ ∀ metric name type aliases m, s.metric? metric = some m →
        s.apply (.createField metric name type aliases) = .ok s' →
        ∃ f, (∃ m', s'.metric? metric = some m' ∧ m'.field? name = some f)
          ∧ (f.id + 1).toNat = f.id.toNat + 1
          ∧ ∀ t ∈ name :: aliases,
            TakenBackWithin s' (s.put { m with fields := ⟨f.id + 1, m.fields.entries⟩ }) m.id f.id
              metric t .deleteField := by
  have unambiguous := check_eq_ok.mp sound
  have inside {metric : String} {m : Metric} (found : s.metric? metric = some m) :
      m ∈ s.metrics.entries ∧ m.fields.Unambiguous := by
    obtain ⟨mem, -⟩ := unambiguous.1.find?_eq_some.mp found
    exact ⟨mem, unambiguous.2 m mem⟩
  -- metrics are found in the catalog, and fields in a metric that keeps its place
  refine ⟨?_, ?_, ?_, ?_, ?_, ?_⟩
  · intro reference t m found applied
    obtain ⟨metrics, added, rfl, unambiguous'⟩ := metrics_of_apply unambiguous rfl applied
    exact takenBack_of_edited unambiguous' (fun _ => rfl)
      (Directory.addAlias_undone Metric.created_lawful unambiguous.1 found added)
  · intro metric reference t m f found found' applied
    obtain ⟨mem, sound'⟩ := inside found
    obtain ⟨fields, added, rfl, unambiguous'⟩ := fields_of_apply unambiguous found rfl applied
    have back : TakenBackWithin _ _ m.id f.id metric t fun metric handle =>
        .removeFieldAlias metric handle t :=
      takenBackWithin_of_edited unambiguous found unambiguous' (fun _ _ => rfl)
        (Directory.addAlias_undone Field.created_lawful sound' found' added)
    rwa [unambiguous.put_of_mem mem] at back
  · intro reference t m found new valid applied
    obtain ⟨metrics, renamed, rfl, unambiguous'⟩ := metrics_of_apply unambiguous rfl applied
    exact takenBack_of_edited unambiguous' (fun _ => rfl)
      (Directory.rename_undone Metric.created_lawful unambiguous.1 found new valid renamed)
  · intro metric reference t m f found found' new valid applied
    obtain ⟨mem, sound'⟩ := inside found
    obtain ⟨fields, renamed, rfl, unambiguous'⟩ := fields_of_apply unambiguous found rfl applied
    have back : TakenBackWithin _ _ m.id f.id metric t fun metric handle =>
        .renameField metric handle f.naming.name :=
      takenBackWithin_of_edited unambiguous found unambiguous' (fun _ _ => rfl)
        (Directory.rename_undone Field.created_lawful sound' found' new valid renamed)
    rwa [unambiguous.put_of_mem mem] at back
  · intro name aliases applied
    obtain ⟨metrics, created, rfl, unambiguous'⟩ := metrics_of_apply unambiguous rfl applied
    obtain ⟨m, next, back⟩ :=
      Directory.create_undone Metric.created_lawful unambiguous.1 created
    refine ⟨m, (back name List.mem_cons_self).1, next, fun t own => ?_⟩
    exact takenBack_of_edited unambiguous' (fun _ => rfl) (back t own).2
  · intro metric name type aliases m found applied
    obtain ⟨mem, sound'⟩ := inside found
    obtain ⟨fields, created, rfl, unambiguous'⟩ := fields_of_apply unambiguous found rfl applied
    obtain ⟨f, next, back⟩ := Directory.create_undone Field.created_lawful sound' created
    refine ⟨f, ?_, next, fun t own => ?_⟩
    · obtain ⟨-, own⟩ := unambiguous.1.find?_eq_some.mp found
      exact ⟨_, unambiguous'.1.find?_eq_some.mpr ⟨Directory.mem_put_self mem rfl, own⟩,
        (back name List.mem_cons_self).1⟩
    · exact takenBackWithin_of_edited unambiguous found unambiguous' (fun _ _ => rfl)
        (back t own).2

/-- A field's alias that removes itself, and a metric that is deleted by its alias. -/
theorem edits_undone_views :
    let s : Schema := ⟨⟨"acme", [], []⟩,
      ⟨2, [⟨1, ⟨"views", ["seen"]⟩, ⟨2, [⟨1, ⟨"page", ["url"]⟩, .string⟩]⟩⟩]⟩⟩
    (∃ s', s.apply (.addFieldAlias "seen" "url" "path") = .ok s'
        ∧ s'.apply (.removeFieldAlias "views" "path" "path") = .ok s)
      ∧ (∃ s', s.apply (.renameMetric "seen" "visits") = .ok s'
        ∧ s'.apply (.renameMetric "visits" "views") = .ok s)
      ∧ ∃ s', s.apply (.createMetric "clicks" ["hits"]) = .ok s'
        ∧ s'.apply (.deleteMetric "hits") = .ok { s with metrics.next := 3 } := by
  intro s
  have sound : s.check = .ok () := by decide +kernel
  refine ⟨⟨_, rfl, ?_⟩, ⟨_, rfl, ?_⟩, _, rfl, ?_⟩
  · have back := (edits_undone sound).2.1 "seen" "url" "path" _ _ rfl rfl rfl
    exact back.restores "views" "path" ⟨_, rfl, rfl, _, rfl, rfl⟩
  · have back := (edits_undone sound).2.2.1 "seen" "visits" _ rfl (by decide) (by decide) rfl
    exact back.restores "visits" back.leads
  · obtain ⟨m, found, -, back⟩ := (edits_undone sound).2.2.2.2.1 "clicks" ["hits"] rfl
    obtain rfl := Option.some.inj found
    exact (back "hits" (by decide)).restores "hits" (back "hits" (by decide)).leads

end Schema

end MetricRegistry.Catalog
