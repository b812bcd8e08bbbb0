import MetricRegistry.Catalog.WorkingCopy
import MetricRegistry.Proofs.Catalog.Index
import MetricRegistry.Proofs.Catalog.Mutation
import MetricRegistry.Proofs.Catalog.RoundTrip

/-!
# What names lead to

The check of a catalog goes through its entries in order, keeps the ids and names seen so far and
stops at the first that comes again; a look-up takes the first entry that answers. The first decides
a property that knows no order (`Schema.Unambiguous`), and where it holds the second gives the one
entry that bears the name, whatever its place (`Directory.Resolves`). `check_decides_naming` says so
of every catalog and every document: what decodes resolves, and what is well-shaped and ambiguous is
damage.
-/

namespace MetricRegistry.Catalog

open Json

/-- The place of the first element with a property is the number of those before it. -/
lemma Located.findIdx?_eq {β : Type} (p : β → Bool) (xs : List β) :
    xs.findIdx? p = (Located.first? p xs).map fun l => l.before.length := by
  induction xs with
  | nil => rfl
  | cons x xs ih =>
    rw [List.findIdx?_cons, Located.first?]
    split
    · rfl
    · rw [ih, Option.map_map, Option.map_map]
      rfl

namespace Directory

variable {α : Type} [Entry α] {d : Directory α} {t : String} {i : ℕ} {x : α}

/-- The position of a name is the number of entries before the one it names. -/
lemma position?_eq (d : Directory α) (t : String) :
    d.position? t = (d.locate? t).map fun l => l.before.length :=
  Located.findIdx?_eq _ _

/-- A name leads to the entry that bears it, wherever that stands, and one that none bears to
nothing. -/
structure Resolves (d : Directory α) : Prop where
  find : ∀ t x, d.find? t = some x
    ↔ x ∈ d.entries ∧ (t = (Entry.naming x).name ∨ t ∈ (Entry.naming x).aliases)
  position : ∀ t i, d.position? t = some i
    ↔ ∃ x, d.entries[i]? = some x ∧ (t = (Entry.naming x).name ∨ t ∈ (Entry.naming x).aliases)
  unique : ∀ t, ∀ x ∈ d.entries, ∀ y ∈ d.entries,
    (t = (Entry.naming x).name ∨ t ∈ (Entry.naming x).aliases) →
    (t = (Entry.naming y).name ∨ t ∈ (Entry.naming y).aliases) → x = y

/-- No entry stands twice in a directory where nothing is ambiguous. -/
lemma Unambiguous.entries_nodup (unambiguous : d.Unambiguous) : d.entries.Nodup :=
  List.Nodup.of_map _ unambiguous.ids_nodup

/-- A name is found in a place where the entry there bears it. -/
lemma Unambiguous.position?_eq_some (unambiguous : d.Unambiguous) :
    d.position? t = some i ↔ ∃ x, d.entries[i]? = some x ∧ t ∈ (Entry.naming x).all := by
  constructor
  · intro found
    obtain ⟨lt, answers, -⟩ := List.findIdx?_eq_some_iff_getElem.mp found
    exact ⟨d.entries[i], List.getElem?_eq_getElem lt, by simpa [Naming.answersTo] using answers⟩
  · rintro ⟨x, here, own⟩
    obtain ⟨lt, rfl⟩ := List.getElem?_eq_some_iff.mp here
    have mem : d.entries[i] ∈ d.entries := List.getElem_mem lt
    cases found : d.position? t with
    | none =>
      have unanswered := List.findIdx?_eq_none_iff.mp found _ mem
      exact absurd own (by simpa [Naming.answersTo] using unanswered)
    | some j =>
      -- the entry in the first place that answers bears the name too, so it is the same
      obtain ⟨lt', answers, -⟩ := List.findIdx?_eq_some_iff_getElem.mp found
      have also : t ∈ (Entry.naming d.entries[j]).all := by
        simpa [Naming.answersTo] using answers
      have same := unambiguous.eq_of_name (List.getElem_mem lt') mem also own
      exact congrArg some ((unambiguous.entries_nodup.getElem_inj_iff).mp same)

/-- In a directory where nothing is ambiguous every name leads to the entry that has it. -/
lemma Unambiguous.resolves_names (unambiguous : d.Unambiguous) : d.Resolves where
  find t x := by
    rw [← List.mem_cons]
    exact unambiguous.find?_eq_some
  position t i := by
    simp only [← List.mem_cons]
    exact unambiguous.position?_eq_some
  unique t x hx y hy own also := by
    rw [← List.mem_cons] at own also
    exact unambiguous.eq_of_name hx hy own also

end Directory

namespace Schema

variable {s : Schema} {document : List UInt8}

/-- The names of metrics lead to metrics, and in each metric those of fields to fields. -/
structure Resolves (s : Schema) : Prop where
  metrics : s.metrics.Resolves
  fields : ∀ m ∈ s.metrics.entries, m.fields.Resolves

/-- In a catalog where nothing is ambiguous every name leads to the entry that has it. -/
lemma Unambiguous.resolves (unambiguous : s.Unambiguous) : s.Resolves :=
  ⟨unambiguous.1.resolves_names, fun m mem => (unambiguous.2 m mem).resolves_names⟩

/-- A document is read if it has the shape of a catalog and nothing in it is ambiguous. -/
lemma decode_eq_ok :
    Schema.decode document = .ok s ↔ whole Schema.read document = .ok s ∧ s.Unambiguous := by
  simp only [Schema.decode, Except.bind_eq_ok, Except.mapError_eq_ok, check_eq_ok, exists_const,
    Except.pure_eq_ok]
  constructor
  · rintro ⟨s, read, unambiguous, rfl⟩
    exact ⟨read, unambiguous⟩
  · rintro ⟨read, unambiguous⟩
    exact ⟨s, read, unambiguous, rfl⟩

/-- A document of the right shape whose catalog breaks the rule is damaged. -/
lemma decode_of_ambiguous (read : whole Schema.read document = .ok s)
    (ambiguous : ¬ s.Unambiguous) :
    ∃ violation, s.check = .error violation
      ∧ Schema.decode document = .error (.corruption (.inconsistent s.orgId violation)) := by
  cases checked : s.check with
  | ok _ => exact absurd (check_eq_ok.mp checked) ambiguous
  | error violation =>
    refine ⟨violation, rfl, ?_⟩
    simp [Schema.decode, read, checked, Except.mapError, bind, Except.bind]

/-- The check decides whether ids are distinct and below their counters and names unambiguous.
Where it passes, look-ups by name find the one entry that bears the name, so it is with every
document that decodes, and a document of the right shape where it fails is always damage. -/
theorem check_decides_naming :
    (∀ s : Schema, s.check = .ok ()
      ↔ (s.metrics.ids.Nodup ∧ (∀ m ∈ s.metrics.entries, m.id < s.metrics.next)
          ∧ s.metrics.names.Nodup)
        ∧ ∀ m ∈ s.metrics.entries, m.fields.ids.Nodup
          ∧ (∀ f ∈ m.fields.entries, f.id < m.fields.next) ∧ m.fields.names.Nodup)
      ∧ (∀ s : Schema, s.check = .ok () → s.Resolves)
      ∧ (∀ document s, Schema.decode document = .ok s → s.Resolves)
      ∧ ∀ document s, whole Schema.read document = .ok s → s.check ≠ .ok () →
        ∃ violation, Schema.decode document
          = .error (.corruption (.inconsistent s.orgId violation)) := by
  refine ⟨fun s => ?_, fun s checked => (check_eq_ok.mp checked).resolves,
    fun _ _ decoded => (decode_eq_ok.mp decoded).2.resolves, fun _ s read fails => ?_⟩
  · rw [check_eq_ok]
    constructor
    · rintro ⟨⟨lt, ids, names⟩, fields⟩
      exact ⟨⟨ids, lt, names⟩, fun m mem =>
        ⟨(fields m mem).ids_nodup, (fields m mem).ids_lt, (fields m mem).names_nodup⟩⟩
    · rintro ⟨⟨ids, lt, names⟩, fields⟩
      exact ⟨⟨lt, ids, names⟩, fun m mem =>
        ⟨(fields m mem).2.1, (fields m mem).1, (fields m mem).2.2⟩⟩
  · have ambiguous : ¬ s.Unambiguous := fun unambiguous => fails (check_eq_ok.mpr unambiguous)
    obtain ⟨violation, -, damaged⟩ := decode_of_ambiguous read ambiguous
    exact ⟨violation, damaged⟩

/-- A metric has an alias. If it is the name of another, the document is damaged; if not, the alias
leads to the metric, in its place. -/
theorem check_decides_naming_alias :
    let document (name : String) := Text.utf8
      ("\x7b\"org_id\":\"acme\",\"next_metric_id\":9,\"metrics\":[\x7b\"id\":7,\"aliases\":[]," ++
        "\"user_visible_name\":\"" ++ name ++ "\",\"next_field_id\":1\x7d,\x7b\"id\":4," ++
        "\"user_visible_name\":\"clicks\",\"aliases\":[\"hits\"],\"next_field_id\":1\x7d]\x7d")
    (∃ violation, Schema.decode (document "hits")
        = .error (.corruption (.inconsistent "acme" violation)))
      ∧ ∃ s, Schema.decode (document "views") = .ok s
        ∧ s.metrics.find? "hits" = some ⟨4, ⟨"clicks", ["hits"]⟩, .empty⟩
        ∧ s.metrics.position? "hits" = some 1 := by
  intro document
  have resolves := check_decides_naming.2.2.1
  have damaged := check_decides_naming.2.2.2
  let schema (name : String) : Schema :=
    ⟨⟨"acme", [], []⟩, ⟨9, [⟨7, ⟨name, []⟩, .empty⟩, ⟨4, ⟨"clicks", ["hits"]⟩, .empty⟩]⟩⟩
  have shared : whole Schema.read (document "hits") = .ok (schema "hits") := by
    decide +kernel
  have decoded : Schema.decode (document "views") = .ok (schema "views") := by
    decide +kernel
  have metrics := (resolves _ _ decoded).metrics
  refine ⟨damaged _ _ shared (by decide +kernel), _, decoded, ?_, ?_⟩
  · exact (metrics.find _ _).mpr ⟨by decide, .inr (by decide)⟩
  · exact (metrics.position _ _).mpr ⟨_, rfl, .inr (by decide)⟩

end Schema

end MetricRegistry.Catalog
