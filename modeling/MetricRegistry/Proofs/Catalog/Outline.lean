import MetricRegistry.Proofs.Catalog.Index
import MetricRegistry.Proofs.Catalog.Mutation

/-!
# The outline of a catalog

An `Outline` is an index of metrics in which each holds an index of its fields. The twelve kinds of
mutation are four kinds of `Change` to it: edits of either index, and the two lists of the tenant.
`apply_refines` says that a mutation of a sound catalog is such a change, and succeeds where the
outline allows it; for metrics and fields alike that is what the operations on a directory do to its
index.
-/

namespace MetricRegistry.Catalog

/-- What a catalog holds, where metrics and fields are found by their names. -/
@[ext]
structure Outline extends Tenant where
  metrics : Index (Index FieldType)

/-- The index of the fields of a metric. -/
def Metric.index (m : Metric) : Index FieldType :=
  m.fields.index Field.type

/-- What a mutation changes. -/
inductive Change where
  | keys (keys : List String)
  | formats (formats : List String)
  | metrics (e : Edit (Index FieldType))
  | fields (metric : String) (e : Edit FieldType)

/-- The twelve kinds of mutation are four of change. -/
def Mutation.change : Mutation → Change
  | .setMetricKeys keys => .keys keys
  | .setTimestampFormats formats => .formats formats
  | .createMetric name aliases => .metrics (.create ⟨name, aliases⟩ .empty)
  | .renameMetric metric newName => .metrics (.rename metric newName)
  | .addMetricAlias metric alternate => .metrics (.addAlias metric alternate)
  | .removeMetricAlias metric alternate => .metrics (.removeAlias metric alternate)
  | .deleteMetric metric => .metrics (.delete metric)
  | .createField metric name type aliases => .fields metric (.create ⟨name, aliases⟩ type)
  | .renameField metric field newName => .fields metric (.rename field newName)
  | .addFieldAlias metric field alternate => .fields metric (.addAlias field alternate)
  | .removeFieldAlias metric field alternate => .fields metric (.removeAlias field alternate)
  | .deleteField metric field => .fields metric (.delete field)

namespace Outline

/-- A change is possible: keys are valid and distinct, formats can be read, and an edit is allowed
by the index of the metrics or by that of the fields of the metric it refers to. -/
def Allows (o : Outline) : Change → Prop
  | .keys keys => (∀ t ∈ keys, ValidName t) ∧ keys.Nodup
  | .formats formats => ∀ t ∈ formats, Timestamp.validateFormat t = .ok ()
  | .metrics e => o.metrics.Allows e
  | .fields metric e =>
    ∃ i fields, o.metrics.idOf metric = some i ∧ o.metrics.inside i = some fields ∧ fields.Allows e

/-- The outline after a change. -/
def after (o : Outline) : Change → Outline
  | .keys keys => { o with metricKeys := keys }
  | .formats formats => { o with timestampFormats := formats }
  | .metrics e => { o with metrics := o.metrics.after e }
  | .fields metric e => { o with metrics := o.metrics.within metric fun fields => fields.after e }

/-- The names an allowed edit of the metrics brings are valid. -/
lemma Allows.valid_of_metrics {o : Outline} {e : Edit (Index FieldType)} {t : String}
    (mem : t ∈ e.names) (allowed : o.Allows (.metrics e)) : ValidName t :=
  allowed.1 t mem

/-- The names an allowed edit of the fields brings are valid. -/
lemma Allows.valid_of_fields {o : Outline} {metric : String} {e : Edit FieldType} {t : String}
    (mem : t ∈ e.names) (allowed : o.Allows (.fields metric e)) : ValidName t := by
  obtain ⟨_, _, -, -, valid, -⟩ := allowed
  exact valid t mem

end Outline

namespace Schema

/-- What look-ups find in a catalog. -/
def outline (s : Schema) : Outline :=
  { s.toTenant with metrics := s.metrics.index Metric.index }

/-- A change of a catalog with a result `r` succeeds where the outline allows it, and does the same
to that. -/
def Refines (s : Schema) (c : Change) (r : Except Rejection Schema) : Prop :=
  ((∃ s', r = .ok s') ↔ s.outline.Allows c) ∧ ∀ s', r = .ok s' → s'.outline = s.outline.after c

variable {s s' : Schema}

/-- A change that follows an edit of the metrics follows it in the catalog. -/
lemma changeMetrics_refines {e : Edit (Index FieldType)}
    {change : Directory Metric → Except Rejection (Directory Metric)}
    (refines : s.metrics.Refines Metric.index e (change s.metrics)) :
    s.Refines (.metrics e) (s.changeMetrics change) := by
  obtain ⟨allows, same⟩ := refines
  refine ⟨?_, fun s' changed => ?_⟩
  · rw [Outline.Allows, outline, ← allows]
    simp only [changeMetrics, Except.bind_eq_ok, Except.pure_eq_ok]
    constructor
    · rintro ⟨_, metrics, changed, -⟩
      exact ⟨metrics, changed⟩
    · rintro ⟨metrics, changed⟩
      exact ⟨_, metrics, changed, rfl⟩
  · simp only [changeMetrics, Except.bind_eq_ok, Except.pure_eq_ok] at changed
    obtain ⟨metrics, changed, rfl⟩ := changed
    simp only [outline, Outline.after, same metrics changed]

/-- A change that follows an edit of one metric's fields follows it in the catalog. -/
lemma changeFields_refines {metric : String} {e : Edit FieldType}
    {change : Scope → Directory Field → Except Rejection (Directory Field)}
    (unambiguous : s.Unambiguous)
    (refines : ∀ m ∈ s.metrics.entries, m.fields.Refines Field.type e (change m.scope m.fields)) :
    s.Refines (.fields metric e) (s.changeFields metric change) := by
  refine ⟨?_, fun s' changed => ?_⟩
  · simp only [changeFields_eq_ok, Outline.Allows, outline]
    constructor
    · rintro ⟨_, l, fields, found, changed, -⟩
      obtain ⟨split, -⟩ := Directory.require_eq_ok found
      have mem : l.it ∈ s.metrics.entries := by simp [split]
      exact ⟨_, _, unambiguous.1.resolves.mpr ⟨l, found, rfl⟩, unambiguous.1.inside_eq mem,
        (refines _ mem).1.mp ⟨fields, changed⟩⟩
    · rintro ⟨_, _, answers, inside, allowed⟩
      obtain ⟨l, found, rfl⟩ := unambiguous.1.resolves.mp answers
      obtain ⟨split, -⟩ := Directory.require_eq_ok found
      have mem : l.it ∈ s.metrics.entries := by simp [split]
      obtain rfl := Option.some.inj ((unambiguous.1.inside_eq mem).symm.trans inside)
      obtain ⟨fields, changed⟩ := (refines _ mem).1.mpr allowed
      exact ⟨_, l, fields, found, changed, rfl⟩
  · obtain ⟨⟨before, m, after⟩, fields, found, inside, rfl⟩ := changeFields_eq_ok.mp changed
    -- only the metrics change, and of these the one that the name leads to
    refine congrArg (Outline.mk s.toTenant) ?_
    rw [Index.within, outline, unambiguous.1.follow_eq found]
    obtain ⟨tenant, next, entries⟩ := s
    obtain ⟨rfl, -⟩ := Directory.require_eq_ok found
    have mem : m ∈ before ++ m :: after := Directory.mem_split.mpr (.inl rfl)
    have same : ({ m with fields := fields } : Metric).index = m.index.after e :=
      (refines m mem).2 fields inside
    have unambiguous' : Directory.Unambiguous
        ⟨next, before ++ { m with fields := fields } :: after⟩ :=
      unambiguous.1.replace rfl (fun t own => .inl own) id
    rw [Located.replace, Directory.index_update unambiguous.1 unambiguous' rfl rfl, same,
      unambiguous.1.inside_eq mem]
    rfl

/-- A check of the name that comes in changes nothing where the outline allows no other. -/
lemma Refines.validated {c : Change} {what t : String} {r : Except Rejection Schema}
    (needs : s.outline.Allows c → ValidName t) (refines : ValidName t → s.Refines c r) :
    s.Refines c (do (validateName what t).mapError .invalid; r) := by
  by_cases valid : ValidName t
  · obtain ⟨allows, same⟩ := refines valid
    simp only [Refines, Except.bind_eq_ok, Except.mapError_eq_ok, validateName_eq_ok, valid,
      true_and, exists_const]
    exact ⟨allows, same⟩
  · simp only [Refines, Except.bind_eq_ok, Except.mapError_eq_ok, validateName_eq_ok, valid,
      false_and, exists_const, exists_false, false_iff, false_imp_iff, implies_true, and_true]
    exact fun allowed => valid (needs allowed)

/-- Each kind of mutation does what its change does to the outline. -/
lemma edit_refines (unambiguous : s.Unambiguous) (m : Mutation) :
    s.Refines m.change (s.edit m) := by
  obtain ⟨metrics, fields⟩ := unambiguous
  cases m with
  | setMetricKeys keys =>
    simp only [Refines, edit, Except.bind_eq_ok, Except.mapError_eq_ok, validateDistinct_eq_ok,
      exists_const, Except.pure_eq_ok]
    constructor
    · simp [Mutation.change, Outline.Allows]
    · rintro _ ⟨-, rfl⟩
      rfl
  | setTimestampFormats formats =>
    simp only [Refines, edit, validateFormats, Except.bind_eq_ok, Except.mapError_eq_ok, forM_eq_ok,
      exists_const, Except.pure_eq_ok]
    constructor
    · simp [Mutation.change, Outline.Allows]
    · rintro _ ⟨-, rfl⟩
      rfl
  | createMetric name aliases =>
    exact changeMetrics_refines (Directory.create_refines (fun _ => ⟨rfl, rfl, rfl⟩) metrics)
  | renameMetric metric newName =>
    refine .validated (Outline.Allows.valid_of_metrics (List.mem_singleton_self _)) fun valid => ?_
    exact changeMetrics_refines (Directory.rename_refines (fun _ _ => rfl) valid metrics)
  | addMetricAlias metric alternate =>
    refine .validated (Outline.Allows.valid_of_metrics (List.mem_singleton_self _)) fun valid => ?_
    exact changeMetrics_refines (Directory.addAlias_refines (fun _ _ => rfl) valid metrics)
  | removeMetricAlias metric alternate =>
    exact changeMetrics_refines (Directory.removeAlias_refines (fun _ _ => rfl) metrics)
  | deleteMetric metric =>
    exact changeMetrics_refines (Directory.delete_refines metrics)
  | createField metric name type aliases =>
    simp only [edit, Mutation.change]
    refine changeFields_refines ⟨metrics, fields⟩ fun m mem => ?_
    exact Directory.create_refines (fun _ => ⟨rfl, rfl, rfl⟩) (fields m mem)
  | renameField metric field newName =>
    refine .validated (Outline.Allows.valid_of_fields (List.mem_singleton_self _)) fun valid => ?_
    refine changeFields_refines ⟨metrics, fields⟩ fun m mem => ?_
    exact Directory.rename_refines (fun _ _ => rfl) valid (fields m mem)
  | addFieldAlias metric field alternate =>
    refine .validated (Outline.Allows.valid_of_fields (List.mem_singleton_self _)) fun valid => ?_
    refine changeFields_refines ⟨metrics, fields⟩ fun m mem => ?_
    exact Directory.addAlias_refines (fun _ _ => rfl) valid (fields m mem)
  | removeFieldAlias metric field alternate =>
    simp only [edit, Mutation.change]
    refine changeFields_refines ⟨metrics, fields⟩ fun m mem => ?_
    exact Directory.removeAlias_refines (fun _ _ => rfl) (fields m mem)
  | deleteField metric field =>
    simp only [edit, Mutation.change]
    refine changeFields_refines ⟨metrics, fields⟩ fun m mem => ?_
    exact Directory.delete_refines (fields m mem)

/-- A mutation of a catalog that passes its check succeeds exactly where the names, ids and counters
allow it, and what it does to them is what its change does. -/
theorem apply_refines (sound : s.check = .ok ()) (m : Mutation) :
    ((∃ s', s.apply m = .ok s') ↔ s.outline.Allows m.change)
      ∧ ∀ s', s.apply m = .ok s' → s'.outline = s.outline.after m.change := by
  have unambiguous := check_eq_ok.mp sound
  simp only [apply_eq_ok_iff_edit unambiguous]
  exact edit_refines unambiguous m

/-- A metric takes one of its own aliases as its name: the alias stands for it still, and its old
name for nothing. -/
theorem apply_refines_promotion :
    let s : Schema := ⟨⟨"acme", [], []⟩, ⟨9, [⟨7, ⟨"clicks", ["hits"]⟩, .empty⟩]⟩⟩
    ∃ s', s.apply (.renameMetric "clicks" "hits") = .ok s'
      ∧ s'.outline.metrics.idOf "hits" = some 7 ∧ s'.outline.metrics.idOf "clicks" = none := by
  intro s
  obtain ⟨allows, same⟩ := apply_refines (s := s) (by decide +kernel)
    (.renameMetric "clicks" "hits")
  obtain ⟨s', applied⟩ := allows.mpr
    ⟨by decide, by decide, 7, by decide +kernel, .inr (by decide +kernel)⟩
  refine ⟨s', applied, ?_⟩
  rw [same s' applied]
  decide +kernel

end Schema

end MetricRegistry.Catalog
