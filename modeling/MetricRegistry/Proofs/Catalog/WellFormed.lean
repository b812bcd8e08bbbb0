import MetricRegistry.Proofs.Catalog.Mutation

/-!
# Well-formed catalogs

A document that decodes is unambiguous, but more holds of every catalog that was made from nothing
by changes: names are names, ids start at one and are listed in the order in which they were given
out, keys are distinct, and formats can be read. `Directory.Sound` says so of a directory,
`Directory.Step.sound` keeps it at both levels, and `Schema.WellFormed` adds what is said of the
tenant. `ofOrg_wellFormed` and `applyAll_wellFormed` are what the registry relies on.
-/

namespace MetricRegistry.Catalog
namespace Directory

variable {α : Type} [Entry α]

/-- Names are valid and distinct, ids go up from one and stay below the counter, and each entry is
sound inside. -/
structure Sound (inside : α → Prop) (d : Directory α) : Prop where
  ids_pos : ∀ x ∈ d.entries, 1 ≤ Entry.id x
  ids_lt : ∀ x ∈ d.entries, Entry.id x < d.next
  ids_increasing : d.ids.Pairwise (· < ·)
  names_valid : ∀ t ∈ d.names, ValidName t
  names_nodup : d.names.Nodup
  inside : ∀ x ∈ d.entries, inside x

variable {inside made : α → Prop} {inner : α → α → Prop} {d d' : Directory α}

/-- A directory without entries is sound. -/
lemma sound_empty : Sound inside (empty : Directory α) := by
  constructor <;> simp [empty, ids, names]

/-- Nothing in a sound directory is ambiguous. -/
lemma Sound.unambiguous (sound : d.Sound inside) : d.Unambiguous :=
  ⟨sound.ids_lt, sound.ids_increasing.imp UInt32.ne_of_lt, sound.names_nodup⟩

/-- The names of an entry are names of its directory. -/
lemma mem_names {x : α} {t : String} (mem : x ∈ d.entries) (own : t ∈ (Entry.naming x).all) :
    t ∈ d.names :=
  List.mem_flatMap.mpr ⟨x, mem, own⟩

/-- A sound directory stays sound if an entry takes names that are valid and free. -/
lemma Sound.replace {next : UInt32} {before after : List α} {x y : α}
    (sound : Sound inside ⟨next, before ++ x :: after⟩) (id : Entry.id y = Entry.id x)
    (origin : ∀ t ∈ (Entry.naming y).all, t ∈ (Entry.naming x).all
      ∨ ValidName t ∧ IsFree ⟨next, before ++ x :: after⟩ t)
    (nodup : (Entry.naming x).all.Nodup → (Entry.naming y).all.Nodup)
    (insides : ∀ z ∈ before ++ y :: after, inside z) :
    Sound inside ⟨next, before ++ y :: after⟩ := by
  have unambiguous := sound.unambiguous.replace id
    (fun t mem => (origin t mem).imp_right And.right) nodup
  have here : x ∈ before ++ x :: after := by simp
  refine ⟨fun z mem => ?_, unambiguous.ids_lt, ?_, fun t mem => ?_, unambiguous.names_nodup,
    insides⟩
  · rcases mem_replace mem with rfl | mem
    · exact id ▸ sound.ids_pos x here
    · exact sound.ids_pos z mem
  · have increasing := sound.ids_increasing
    rw [ids_split] at increasing ⊢
    rwa [id]
  · obtain ⟨z, zmem, tmem⟩ := List.mem_flatMap.mp mem
    rcases mem_replace zmem with rfl | zmem
    · rcases origin t tmem with kept | new
      · exact sound.names_valid t (mem_names here kept)
      · exact new.1
    · exact sound.names_valid t (mem_names zmem tmem)

/-- A change leaves a directory sound where new entries are sound and changes inside keep them
so. -/
lemma Step.sound [LawfulEntry α] (new : ∀ x, made x → inside x)
    (rename : ∀ x n, inside x → inside (Entry.rename x n))
    (change : ∀ x y, inner x y → inside x → inside y) (step : Step made inner d d')
    (sound : d.Sound inside) : d'.Sound inside := by
  -- what is left to see is the order of the ids and that names are valid
  have unambiguous := step.unambiguous sound.unambiguous
  have insides := step.forall_mem new rename change sound.inside
  cases step with
  | same => exact sound
  | @create _ x isMade isNext fits free nodup =>
    have above := sound.unambiguous.lt_of_isNext isNext
    refine ⟨fun y mem => ?_, unambiguous.ids_lt, ?_, fun t mem => ?_, unambiguous.names_nodup,
      insides⟩
    · rcases List.mem_append.mp mem with mem | mem
      · exact sound.ids_pos y mem
      · rw [List.mem_singleton.mp mem]
        exact (le_of_isNext isNext).2
    · rw [ids, List.map_append]
      refine List.pairwise_append.mpr ⟨sound.ids_increasing, by simp, fun i mem j last => ?_⟩
      obtain ⟨y, ymem, rfl⟩ := List.mem_map.mp mem
      obtain rfl : j = Entry.id x := by simpa using last
      exact above y ymem
    · rw [names, List.flatMap_append, List.flatMap_singleton] at mem
      rcases List.mem_append.mp mem with mem | mem
      · exact sound.names_valid t mem
      · exact (free t mem).1
  | @rename next before x after n origin nodup =>
    exact sound.replace (LawfulEntry.id_rename x n) (by simpa using origin) (by simpa using nodup)
      insides
  | @delete next before x after =>
    have fewer := sublist_remove before after x
    refine ⟨fun y mem => sound.ids_pos y (fewer.subset mem), unambiguous.ids_lt,
      sound.ids_increasing.sublist (fewer.map _), fun t mem => ?_, unambiguous.names_nodup,
      insides⟩
    obtain ⟨y, ymem, tmem⟩ := List.mem_flatMap.mp mem
    exact sound.names_valid t (mem_names (fewer.subset ymem) tmem)
  | @update next before x y after changed id naming =>
    exact sound.replace id (fun t mem => .inl (naming ▸ mem)) (fun nodup => naming ▸ nodup)
      insides

end Directory

/-- The fields of a metric are sound. -/
def Metric.Sound (m : Metric) : Prop :=
  m.fields.Sound fun _ => True

/-- An edit of its fields keeps a metric sound. -/
lemma Metric.Step.sound {m m' : Metric} (step : m.Step m') (sound : m.Sound) : m'.Sound := by
  obtain ⟨fields, step, rfl⟩ := step
  exact step.sound (fun _ _ => trivial) (fun _ _ _ => trivial) (fun _ _ _ _ => trivial) sound

namespace Schema

/-- All that holds of a catalog that was made by changes. -/
structure WellFormed (s : Schema) : Prop where
  orgId_valid : ValidName s.orgId
  keys_valid : ∀ t ∈ s.metricKeys, ValidName t
  keys_nodup : s.metricKeys.Nodup
  formats_valid : ∀ t ∈ s.timestampFormats, Timestamp.validateFormat t = .ok ()
  metrics : s.metrics.Sound Metric.Sound

variable {s s' : Schema}

/-- Nothing in a well-formed catalog is ambiguous. -/
lemma WellFormed.unambiguous (wellFormed : s.WellFormed) : s.Unambiguous :=
  ⟨wellFormed.metrics.unambiguous, fun m mem => (wellFormed.metrics.inside m mem).unambiguous⟩

/-- An edit keeps a catalog well-formed. -/
lemma Step.wellFormed (step : Step s s') (wellFormed : s.WellFormed) : s'.WellFormed := by
  cases step with
  | keys valid nodup => exact { wellFormed with keys_valid := valid, keys_nodup := nodup }
  | formats valid => exact { wellFormed with formats_valid := valid }
  | metrics step =>
    refine { wellFormed with metrics := step.sound ?_ ?_ ?_ wellFormed.metrics }
    · rintro m fields
      rw [Metric.Sound, fields]
      exact Directory.sound_empty
    · exact fun _ _ sound => sound
    · exact fun _ _ step sound => step.sound sound

/-- A new catalog is well-formed and belongs to its org. -/
lemma ofOrg_wellFormed {org : String} (started : ofOrg org = .ok s) :
    s.WellFormed ∧ s.orgId = org := by
  simp only [ofOrg, Except.bind_eq_ok, validateName_eq_ok, exists_const, Except.pure_eq_ok]
    at started
  obtain ⟨valid, rfl⟩ := started
  refine ⟨⟨valid, ?_, ?_, ?_, Directory.sound_empty⟩, rfl⟩ <;> simp

/-- A batch keeps a catalog well-formed. -/
lemma applyAll_wellFormed {ms : List Mutation} (wellFormed : s.WellFormed)
    (applied : s.applyAll ms = .ok s') : s'.WellFormed :=
  applyAll_induction (fun _ _ _ before changed =>
    (edit_step (apply_eq_ok.mp changed).1).wellFormed before) wellFormed applied

end Schema

end MetricRegistry.Catalog
