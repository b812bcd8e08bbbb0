import MetricRegistry.Catalog.Mutation
import MetricRegistry.Proofs.Catalog.Directory

/-!
# What a change of a catalog can do

`Schema.Step` lists what the twelve kinds of change can do: the lists of the tenant are replaced by
valid ones, or the directory of metrics makes a step in which a metric's inside makes a step of its
directory of fields. `edit_step` reads the success of a change as such a step, one case for each
kind. `check_eq_ok` reads the check of a catalog as `Schema.Unambiguous`, and `applyAll_induction`
carries a property along several changes.
-/

namespace MetricRegistry.Catalog

/-- How a metric can change inside: by a step of its fields. -/
def Metric.Step (m m' : Metric) : Prop :=
  ∃ fields, Directory.Step (fun _ => True) (fun _ _ => False) m.fields fields
    ∧ m' = { m with fields := fields }

namespace Schema

/-- Metrics and, within each metric, fields are unambiguous. -/
def Unambiguous (s : Schema) : Prop :=
  s.metrics.Unambiguous ∧ ∀ m ∈ s.metrics.entries, m.fields.Unambiguous

/-- What one change of a catalog can do. -/
inductive Step : Schema → Schema → Prop where
  | keys {s keys} :
    (∀ t ∈ keys, ValidName t) →
    keys.Nodup →
    Step s { s with metricKeys := keys }
  | formats {s formats} :
    (∀ t ∈ formats, Timestamp.validateFormat t = .ok ()) →
    Step s { s with timestampFormats := formats }
  | metrics {s metrics} :
    Directory.Step (fun m => m.fields = .empty) Metric.Step s.metrics metrics →
    Step s { s with metrics := metrics }

variable {s s' : Schema}

/-- A catalog passes its check if nothing in it is ambiguous. -/
lemma check_eq_ok {u : Unit} : s.check = .ok u ↔ s.Unambiguous := by
  simp [check, Directory.check_eq_ok, Unambiguous, Metric.check]

/-- A change that is a step of the metrics is a step of the catalog. -/
lemma changeMetrics_step {change : Directory Metric → Except Rejection (Directory Metric)}
    (step : ∀ d d', change d = .ok d' →
      Directory.Step (fun m => m.fields = .empty) Metric.Step d d')
    (changed : s.changeMetrics change = .ok s') : Step s s' := by
  simp only [changeMetrics, Except.bind_eq_ok, Except.pure_eq_ok] at changed
  obtain ⟨metrics, changed, rfl⟩ := changed
  exact .metrics (step _ _ changed)

/-- A change that is a step of one metric's fields is a step of the catalog. -/
lemma changeFields_step {metric : String}
    {change : Scope → Directory Field → Except Rejection (Directory Field)}
    (step : ∀ scope d d', change scope d = .ok d' →
      Directory.Step (fun _ => True) (fun _ _ => False) d d')
    (changed : s.changeFields metric change = .ok s') : Step s s' := by
  refine changeMetrics_step (fun d d' => Directory.update_step fun m m' inside => ?_) changed
  simp only [Except.bind_eq_ok, Except.pure_eq_ok] at inside
  obtain ⟨fields, inside, rfl⟩ := inside
  exact ⟨⟨fields, step _ _ _ inside, rfl⟩, rfl, rfl⟩

/-- Changing the fields of a metric is changing the directory of fields that its name leads to. -/
lemma changeFields_eq_ok {metric : String}
    {change : Scope → Directory Field → Except Rejection (Directory Field)} :
    s.changeFields metric change = .ok s'
      ↔ ∃ l fields, s.metrics.require .metrics metric = .ok l
        ∧ change l.it.scope l.it.fields = .ok fields
        ∧ { s with metrics := ⟨s.metrics.next, l.replace { l.it with fields := fields }⟩ }
          = s' := by
  simp only [changeFields, changeMetrics, Except.bind_eq_ok, Directory.update_eq_ok,
    Except.pure_eq_ok]
  constructor
  · rintro ⟨_, ⟨l, found, _, ⟨fields, changed, rfl⟩, rfl⟩, rfl⟩
    exact ⟨l, fields, found, changed, rfl⟩
  · rintro ⟨l, fields, found, changed, rfl⟩
    exact ⟨_, ⟨l, found, _, ⟨fields, changed, rfl⟩, rfl⟩, rfl⟩

/-- Every mutation is a step of the catalog. -/
lemma edit_step {m : Mutation} (edited : s.edit m = .ok s') : Step s s' := by
  cases m with
  | setMetricKeys keys =>
    simp only [edit, Except.bind_eq_ok, Except.mapError_eq_ok, validateDistinct_eq_ok, exists_const,
      Except.pure_eq_ok] at edited
    obtain ⟨⟨valid, nodup⟩, rfl⟩ := edited
    exact .keys valid nodup
  | setTimestampFormats formats =>
    simp only [edit, validateFormats, Except.bind_eq_ok, Except.mapError_eq_ok, forM_eq_ok,
      exists_const, Except.pure_eq_ok] at edited
    obtain ⟨valid, rfl⟩ := edited
    exact .formats valid
  -- the other kinds change a directory, after a check of the name that they bring
  | createMetric name aliases =>
    simp only [edit] at edited
    exact changeMetrics_step
      (fun d d' => Directory.create_step fun _ => ⟨rfl, rfl, rfl⟩) edited
  | renameMetric metric newName =>
    simp only [edit, Except.bind_eq_ok, Except.mapError_eq_ok, validateName_eq_ok,
      exists_const] at edited
    exact changeMetrics_step (fun d d' => Directory.rename_step edited.1) edited.2
  | addMetricAlias metric alternate =>
    simp only [edit, Except.bind_eq_ok, Except.mapError_eq_ok, validateName_eq_ok,
      exists_const] at edited
    exact changeMetrics_step (fun d d' => Directory.addAlias_step edited.1) edited.2
  | removeMetricAlias metric alternate =>
    simp only [edit] at edited
    exact changeMetrics_step (fun d d' => Directory.removeAlias_step) edited
  | deleteMetric metric =>
    simp only [edit] at edited
    exact changeMetrics_step (fun d d' => Directory.delete_step) edited
  | createField metric name type aliases =>
    simp only [edit] at edited
    exact changeFields_step
      (fun _ d d' => Directory.create_step fun _ => ⟨rfl, rfl, trivial⟩) edited
  | renameField metric field newName =>
    simp only [edit, Except.bind_eq_ok, Except.mapError_eq_ok, validateName_eq_ok,
      exists_const] at edited
    exact changeFields_step (fun _ d d' => Directory.rename_step edited.1) edited.2
  | addFieldAlias metric field alternate =>
    simp only [edit, Except.bind_eq_ok, Except.mapError_eq_ok, validateName_eq_ok,
      exists_const] at edited
    exact changeFields_step (fun _ d d' => Directory.addAlias_step edited.1) edited.2
  | removeFieldAlias metric field alternate =>
    simp only [edit] at edited
    exact changeFields_step (fun _ d d' => Directory.removeAlias_step) edited
  | deleteField metric field =>
    simp only [edit] at edited
    exact changeFields_step (fun _ d d' => Directory.delete_step) edited

/-- A change that is made and passes the check is a step to an unambiguous catalog. -/
lemma apply_eq_ok {m : Mutation} :
    s.apply m = .ok s' ↔ s.edit m = .ok s' ∧ s'.Unambiguous := by
  simp only [apply, Except.bind_eq_ok, Except.mapError_eq_ok, check_eq_ok, exists_const,
    Except.pure_eq_ok]
  constructor
  · rintro ⟨t, edited, checked, rfl⟩
    exact ⟨edited, checked⟩
  · rintro ⟨edited, checked⟩
    exact ⟨s', edited, checked, rfl⟩

/-- No step moves a catalog to another org. -/
lemma Step.orgId_eq (step : Step s s') : s'.orgId = s.orgId := by
  cases step <;> rfl

/-- A change leaves metrics and fields unambiguous. -/
lemma Step.unambiguous (step : Step s s') (unambiguous : s.Unambiguous) : s'.Unambiguous := by
  cases step with
  | keys => exact unambiguous
  | formats => exact unambiguous
  | metrics step =>
    refine ⟨step.unambiguous unambiguous.1, step.forall_mem ?_ ?_ ?_ unambiguous.2⟩
    · intro m fields
      rw [fields]
      exact Directory.unambiguous_empty
    · exact fun _ _ old => old
    · rintro m _ ⟨fields, inside, rfl⟩ old
      exact inside.unambiguous old

/-- The check at the end of a change of an unambiguous catalog passes. -/
lemma apply_eq_ok_iff_edit {m : Mutation} (unambiguous : s.Unambiguous) :
    s.apply m = .ok s' ↔ s.edit m = .ok s' := by
  rw [apply_eq_ok, and_iff_left_iff_imp]
  exact fun edited => (edit_step edited).unambiguous unambiguous

/-- What every change keeps is kept by several. -/
lemma applyAll_induction {P : Schema → Prop} {ms : List Mutation}
    (keeps : ∀ s m s', P s → s.apply m = .ok s' → P s') (start : P s)
    (applied : s.applyAll ms = .ok s') : P s' := by
  induction ms generalizing s with
  | nil =>
    obtain rfl := Except.pure_eq_ok.mp applied
    exact start
  | cons m ms ih =>
    simp only [applyAll, List.foldlM_cons, Except.bind_eq_ok] at applied
    obtain ⟨t, first, rest⟩ := applied
    exact ih (keeps s m t start first) rest

/-- No batch moves a catalog to another org. -/
lemma applyAll_orgId {ms : List Mutation} (applied : s.applyAll ms = .ok s') :
    s'.orgId = s.orgId :=
  applyAll_induction (P := fun t => t.orgId = s.orgId)
    (fun _ _ _ eq changed => (edit_step (apply_eq_ok.mp changed).1).orgId_eq.trans eq) rfl applied

/-- A batch leaves nothing ambiguous. -/
lemma applyAll_unambiguous {ms : List Mutation} (unambiguous : s.Unambiguous)
    (applied : s.applyAll ms = .ok s') : s'.Unambiguous :=
  applyAll_induction (fun _ _ _ _ changed => (apply_eq_ok.mp changed).2) unambiguous applied

end Schema

end MetricRegistry.Catalog
