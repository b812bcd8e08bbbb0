import Mathlib.Data.List.Perm.Subperm
import Mathlib.Tactic.MkIffOfInductiveProp
import MetricRegistry.Proofs.Catalog.Renaming
import MetricRegistry.Proofs.Registry.Batching
import MetricRegistry.Request.Handler

/-!
# What an update of names does

A request to change the names of a metric or a field becomes a rename, additions and removals, which
find the entry again by a handle. `NameChanges.Fits` says where all of them can be made, and
`NameChanges.applied` what the entry is called then; neither knows of a handle or of an order.
`renames_edits` derives both from the edits, for metrics and fields alike. The handle is the new
name, or the name in the request, which leads to the entry until it is itself removed, and that
comes last (`removals_last`). `updates_commit` carries this over to a request that is handled alone.
-/

namespace MetricRegistry

open Catalog

namespace NameChanges

/-- A naming once the new name is given, which ceases to be an alias. -/
def renamed (c : NameChanges) (n : Naming) : Naming :=
  ⟨c.newName.getD n.name, n.aliases.filter (some · != c.newName)⟩

/-- The aliases to remove. A name just given is not one of them. -/
def removed (c : NameChanges) : List String :=
  c.removeAliases.filter (some · != c.newName)

/-- A naming once all changes are made. -/
def applied (c : NameChanges) (n : Naming) : Naming :=
  ⟨(c.renamed n).name, ((c.renamed n).aliases ++ c.addAliases).diff c.removed⟩

/-- Changes can be made of an entry: the new name is valid and either its own or free, the aliases
to add are valid, distinct and free once it is renamed, and those to remove are distinct and its own
by then. -/
@[mk_iff]
structure Fits {α : Type} [Entry α] (c : NameChanges) (d : Directory α) (x : α) : Prop where
  newName : ∀ t ∈ c.newName, ValidName t ∧ (t ∈ (Entry.naming x).all ∨ d.IsFree t)
  added_valid : ∀ t ∈ c.addAliases, ValidName t
  added_nodup : c.addAliases.Nodup
  added_free : ∀ t ∈ c.addAliases, (d.calling x (c.renamed (Entry.naming x))).IsFree t
  removed_nodup : c.removed.Nodup
  removed_own : ∀ t ∈ c.removed, t ∈ (c.renamed (Entry.naming x)).aliases ++ c.addAliases

instance {α : Type} [Entry α] (c : NameChanges) (d : Directory α) (x : α) :
    Decidable (c.Fits d x) :=
  decidable_of_iff _ (fits_iff c d x).symm

/-! ## The edits of an update -/

variable {c : NameChanges}

/-- The edits that an update of an entry consists of. -/
def edits {γ : Type} (c : NameChanges) (name : String) : List (Edit γ) :=
  (c.newName.map (.rename name)).toList ++ c.addAliases.map (.addAlias (c.handle name))
    ++ (c.removals (c.handle name)).map (.removeAlias (c.handle name))

/-- The mutations of a metric make the edits of its names. -/
lemma change_ofMetric (c : NameChanges) (name : String) :
    (c.ofMetric name).map Mutation.change = (c.edits name).map .metrics := by
  cases c with
  | mk newName _ _ =>
    cases newName <;> simp [ofMetric, edits, Function.comp_def, Mutation.change]

/-- The mutations of a field make the edits of its names. -/
lemma change_ofField (c : NameChanges) (metric name : String) :
    (c.ofField metric name).map Mutation.change = (c.edits name).map (.fields metric) := by
  cases c with
  | mk newName _ _ =>
    cases newName <;> simp [ofField, edits, Function.comp_def, Mutation.change]

/-- The aliases are removed that are to be, in some order. -/
lemma removals_perm (c : NameChanges) (handle : String) : (c.removals handle).Perm c.removed := by
  simpa [removals, removed, bne] using List.filter_append_perm (· != handle) c.removed

/-- Nothing but the handle is removed after the handle. -/
lemma removals_last (c : NameChanges) (handle : String) :
    (c.removals handle).Pairwise fun s t => s = handle → t = handle := by
  refine List.pairwise_append.mpr ⟨?_, ?_, ?_⟩
  · refine List.pairwise_of_forall_mem_list fun s smem t _ same => ?_
    exact absurd same (by simpa using (List.mem_filter.mp smem).2)
  · refine List.pairwise_of_forall_mem_list fun s _ t tmem _ => ?_
    simpa using (List.mem_filter.mp tmem).2
  · intro s _ t tmem _
    simpa using (List.mem_filter.mp tmem).2

section Directory

variable {α γ : Type} [Entry α] [NamedEntry α] {make : UInt32 → Naming → γ → α}
variable {d d' : Directory α} {x : α} {name : String}

/-- Without a new name the names stay. -/
lemma renamed_of_none (none : c.newName = none) (n : Naming) : c.renamed n = n := by
  have kept : n.aliases.filter (some · != c.newName) = n.aliases :=
    List.filter_eq_self.mpr fun t _ => by rw [none]; rfl
  rw [renamed, kept, none]
  rfl

/-- A new name is given to an entry that is found, if it is free there. -/
lemma renames_newName (unambiguous : d.Unambiguous) (found : d.find? name = some x) :
    d.Renames make x (c.newName.map (.rename name)).toList
      (∀ t ∈ c.newName, ValidName t ∧ (t ∈ (Entry.naming x).all ∨ d.IsFree t))
      (c.renamed (Entry.naming x)) := by
  obtain ⟨mem, -⟩ := unambiguous.find?_eq_some.mp found
  cases given : c.newName with
  | none =>
    exact (unambiguous.renames_nil mem).congr (by simp) fun _ => (renamed_of_none given _).symm
  | some t =>
    obtain ⟨-, nodup⟩ := List.nodup_cons.mp (unambiguous.nodup_all mem)
    refine (Directory.renames_rename found).congr (by simp) fun _ => ?_
    simp [renamed, given, nodup.erase_eq_filter, bne]

/-- The handle is a name of the entry once that is renamed. -/
lemma handle_mem {n : Naming} (own : name ∈ n.all) : c.handle name ∈ (c.renamed n).all := by
  cases given : c.newName with
  | none => simpa [handle, renamed_of_none given, given] using own
  | some t => simp [handle, renamed, given, Naming.all]

/-- An update of an entry can be made where it fits, and does nothing but change the names. -/
lemma renames_edits
    (lawful : ∀ id n g, Entry.id (make id n g) = id ∧ Entry.naming (make id n g) = n)
    (unambiguous : d.Unambiguous) (found : d.find? name = some x) :
    d.Renames make x (c.edits name) (c.Fits d x) (c.applied (Entry.naming x)) := by
  obtain ⟨mem, own⟩ := unambiguous.find?_eq_some.mp found
  have handled := handle_mem (c := c) own
  have renamed : d.Renames make x _ _ _ := renames_newName (c := c) unambiguous found
  have extended := renamed.append fun q => Directory.renames_addAll lawful
    (renamed.unambiguous lawful unambiguous q)
    (renamed.find? lawful unambiguous mem q handled) c.addAliases
  simp only [LawfulEntry.naming_rename] at extended
  have reduced := extended.append fun q => Directory.renames_removeAll lawful
    (extended.unambiguous lawful unambiguous q)
    (extended.find? lawful unambiguous mem q (List.mem_append_left _ handled))
    _ (c.removals_last (c.handle name))
  simp only [LawfulEntry.naming_rename] at reduced
  have perm := c.removals_perm (c.handle name)
  refine reduced.congr ?_ fun _ => ?_
  · simp only [perm.nodup_iff, perm.mem_iff]
    constructor
    · rintro ⟨⟨newName, nodup, added⟩, once, old⟩
      exact ⟨newName, fun t mem => (added t mem).1, nodup, fun t mem => (added t mem).2, once, old⟩
    · rintro ⟨newName, valid, nodup, free, once, old⟩
      exact ⟨⟨newName, nodup, fun t mem => ⟨valid t mem, free t mem⟩⟩, once, old⟩
  · rw [applied, perm.diff_left]

/-- Any change refers to the entry by the name that it is given. -/
lemma edits_eq_cons {γ : Type} (changes : c ≠ {}) (name : String) :
    ∃ (e : Edit γ) (es : List (Edit γ)), c.edits name = e :: es ∧ e.reference? = some name := by
  obtain ⟨newName, addAliases, removeAliases⟩ := c
  cases newName with
  | some t => exact ⟨.rename name t, _, rfl, rfl⟩
  | none =>
  cases addAliases with
  | cons t ts => exact ⟨.addAlias name t, _, rfl, rfl⟩
  | nil =>
  cases removes : removals ⟨none, [], removeAliases⟩ name with
  | cons t ts =>
    refine ⟨.removeAlias name t, ts.map (.removeAlias name), ?_, rfl⟩
    show (removals _ name).map (Edit.removeAlias name) = _
    rw [removes]
    rfl
  | nil =>
    -- there is no new name to leave out, so there was nothing to remove
    have all : removed ⟨none, [], removeAliases⟩ = removeAliases :=
      List.filter_eq_self.mpr fun _ _ => rfl
    have perm := removals_perm ⟨none, [], removeAliases⟩ name
    rw [removes, all] at perm
    obtain rfl := perm.nil_eq
    exact absurd rfl changes

/-- Changes of names are at least one mutation. -/
lemma ne_nil_of_change {γ : Type} {ms : List Mutation} {kind : Edit γ → Change} (changes : c ≠ {})
    (name : String) (change : ms.map Mutation.change = (c.edits name).map kind) : ms ≠ [] := by
  rintro rfl
  obtain ⟨e, es, split, -⟩ := edits_eq_cons (γ := γ) changes name
  rw [split] at change
  exact nomatch change

/-- The edits of changes apply them to the entry that is found, if they fit. -/
lemma editedAll_edits
    (lawful : ∀ id n g, Entry.id (make id n g) = id ∧ Entry.naming (make id n g) = n)
    (unambiguous : d.Unambiguous) (changes : c ≠ {}) :
    d.EditedAll make (c.edits name) d' ↔ ∃ x, d.find? name = some x ∧ c.Fits d x
      ∧ d' = d.calling x (c.applied (Entry.naming x)) := by
  constructor
  · intro edited
    obtain ⟨e, es, split, refers⟩ := edits_eq_cons (γ := γ) changes name
    have there : ∃ x, d.find? name = some x := by
      rw [split] at edited
      cases edited with
      | cons first _ => exact first.find? refers
    obtain ⟨x, found⟩ := there
    exact ⟨x, found, (renames_edits lawful unambiguous found d').mp edited⟩
  · rintro ⟨x, found, fits, same⟩
    exact (renames_edits lawful unambiguous found d').mpr ⟨fits, same⟩

end Directory

/-! ## The mutations of an update -/

variable {s s' : Schema} {metric name : String}

/-- Changes are applied to a metric that is found, if they fit. -/
lemma applyAll_ofMetric (unambiguous : s.Unambiguous) (changes : c ≠ {}) :
    s.applyAll (c.ofMetric name) = .ok s' ↔ ∃ m, s.metric? name = some m ∧ c.Fits s.metrics m
      ∧ s' = s.put { m with naming := c.applied m.naming } := by
  rw [Schema.applyAll_metrics unambiguous (c.change_ofMetric name)]
  simp only [editedAll_edits Metric.created_lawful unambiguous.1 changes]
  constructor
  · rintro ⟨_, ⟨m, found, fits, rfl⟩, rfl⟩
    exact ⟨m, found, fits, rfl⟩
  · rintro ⟨m, found, fits, rfl⟩
    exact ⟨_, ⟨m, found, fits, rfl⟩, rfl⟩

/-- Changes are applied to a field that is found, if they fit. -/
lemma applyAll_ofField (unambiguous : s.Unambiguous) (changes : c ≠ {}) :
    s.applyAll (c.ofField metric name) = .ok s' ↔ ∃ m f, s.metric? metric = some m
      ∧ m.field? name = some f ∧ c.Fits m.fields f
      ∧ s' = s.put { m with fields := m.fields.put { f with naming := c.applied f.naming } } := by
  have made {m : Metric} (found : s.metric? metric = some m) :
      s.applyAll (c.ofField metric name) = .ok s' ↔ ∃ f, m.field? name = some f
        ∧ c.Fits m.fields f
        ∧ s' = s.put { m with fields := m.fields.put { f with naming := c.applied f.naming } } := by
    obtain ⟨mem, -⟩ := unambiguous.1.find?_eq_some.mp found
    rw [Schema.applyAll_fields unambiguous found (c.change_ofField metric name)]
    simp only [editedAll_edits Field.created_lawful (unambiguous.2 m mem) changes]
    constructor
    · rintro ⟨_, ⟨f, found, fits, rfl⟩, rfl⟩
      exact ⟨f, found, fits, rfl⟩
    · rintro ⟨f, found, fits, rfl⟩
      exact ⟨_, ⟨f, found, fits, rfl⟩, rfl⟩
  constructor
  · intro applied
    obtain ⟨e, es, split, -⟩ := edits_eq_cons changes name
    obtain ⟨m, found⟩ := Schema.find?_of_applyAll_fields unambiguous
      ((c.change_ofField metric name).trans (congrArg _ split)) applied
    obtain ⟨f, rest⟩ := (made found).mp applied
    exact ⟨m, f, found, rest⟩
  · rintro ⟨m, f, found, rest⟩
    exact (made found).mpr ⟨f, rest⟩

end NameChanges

/-! ## Requests that are handled alone -/

/-- What comes of a request that nobody disturbs. -/
def handled (retryer : Retryer) (request : Request) (b : Backing) :
    Except RegistryError Response × Backing :=
  ((handle retryer request).runOn Backing.store).run b

/-- A request was answered by one commit, of a catalog that can be read from then on. -/
structure Commits (b : Backing) (org : String) (version : Version) (s : Schema)
    (run : Except RegistryError Response × Backing) : Prop where
  answer : run.1 = .ok (.committed org version true)
  cells : run.2.cells = b.cells.put org version s
  holds : run.2.cells.Holds org version s

/-- What ends in anything but a conflict is not tried again. -/
lemma alone_retried {α : Type} {limited : Bool} {cs ds : Cells}
    {attempt : Program (Except RegistryError α)} {r : Except RegistryError α}
    (ran : attempt.alone limited cs = (r, ds)) (final : ∀ e, r = .error e → e.isConflict = false)
    (retryer : Retryer) : (retryer.run attempt).alone limited cs = (r, ds) := by
  obtain ⟨n, more⟩ := Nat.exists_eq_succ_of_ne_zero (Nat.pos_iff_ne_zero.mp retryer.attempts_pos)
  rw [Retryer.run, more, Retryer.loop, Program.alone_bind, ran]
  cases r with
  | ok a => rfl
  | error e =>
    simp only [final e rfl]
    rfl

section Handled

variable {b : Backing} {retryer : Retryer} {request : Request} {org : String} {ms : List Mutation}
variable {target : Option Target} {version : Version} {s s' : Schema}

/-- What a request does alone is what is handled. -/
lemma handled_of_alone {r : Except RegistryError Response} {cs : Cells} (keyed : b.Keyed)
    (alone : (ExceptT.run (handle retryer request)).alone b.limited b.cells = (r, cs)) :
    (handled retryer request b).1 = r ∧ (handled retryer request b).2.cells = cs := by
  obtain ⟨b', run, -, -, left⟩ := Backing.run_of_alone keyed alone
  have run : handled retryer request b = (r, b') := run
  rw [run]
  exact ⟨rfl, left⟩

/-- A request with a plan of changes commits them with retries. -/
lemma handle_of_plan (planned : request.plan = .ok (.update org ms target)) (nonempty : ms ≠ []) :
    handle retryer request = do
      let c ← ExceptT.mk (retryer.run (ExceptT.run (commitChanges org ms)))
      return c.response := by
  rw [handle, planned]
  show (Plan.update org ms target).perform retryer = _
  rw [Plan.perform, List.isEmpty_eq_false_iff.mpr nonempty]
  rfl

/-- A request whose changes apply commits them. -/
lemma handled_of_ok (retryer : Retryer) (keyed : b.Keyed) (holds : b.cells.Holds org version s)
    (room : b.limited = true → version + 1 < UInt64.size / 2)
    (planned : request.plan = .ok (.update org ms target)) (nonempty : ms ≠ [])
    (applied : s.applyAll ms = .ok s') :
    Commits b org (version + 1) s' (handled retryer request b) := by
  have ran := alone_retried (alone_commitChanges_of_ok holds nonempty room applied)
    (fun _ failed => nomatch failed) retryer
  have alone : (ExceptT.run (handle retryer request)).alone b.limited b.cells
      = (.ok (.committed org (version + 1) true), b.cells.put org (version + 1) s') := by
    rw [handle_of_plan planned nonempty]
    exact (Program.alone_andThen_of_ok ran).trans rfl
  obtain ⟨answer, left⟩ := handled_of_alone keyed alone
  exact ⟨answer, left, left ▸ (holds.put_applyAll applied (version + 1)).holds⟩

/-- A request whose changes do not apply is rejected and changes nothing. -/
lemma handled_of_error {rejection : Rejection} (retryer : Retryer) (keyed : b.Keyed)
    (holds : b.cells.Holds org version s) (planned : request.plan = .ok (.update org ms target))
    (nonempty : ms ≠ []) (refused : s.applyAll ms = .error rejection) :
    (handled retryer request b).1 = .error (.rejected rejection)
      ∧ (handled retryer request b).2.cells = b.cells := by
  have ran : (retryer.run (ExceptT.run (commitChanges org ms))).alone b.limited b.cells
      = (.error (.rejected rejection), b.cells) :=
    alone_retried (alone_commitChanges_of_error holds nonempty refused)
      (fun _ failed => Except.error.inj failed ▸ rfl) retryer
  apply handled_of_alone keyed
  rw [handle_of_plan planned nonempty]
  exact Program.alone_andThen_of_error ran

/-- A request succeeds where its mutations do. -/
lemma handled_update {made : Schema → Prop} (retryer : Retryer) (keyed : b.Keyed)
    (holds : b.cells.Holds org version s)
    (room : b.limited = true → version + 1 < UInt64.size / 2)
    (planned : request.plan = .ok (.update org ms target)) (nonempty : ms ≠ [])
    (applies : ∀ s', s.applyAll ms = .ok s' ↔ made s') :
    ((∃ r, (handled retryer request b).1 = .ok r) ↔ ∃ s', made s')
      ∧ (∀ s', made s' → Commits b org (version + 1) s' (handled retryer request b))
      ∧ ∀ e, (handled retryer request b).1 = .error e →
        (handled retryer request b).2.cells = b.cells := by
  have commits : ∀ s', made s' → Commits b org (version + 1) s' (handled retryer request b) :=
    fun s' done =>
      handled_of_ok retryer keyed holds room planned nonempty ((applies s').mpr done)
  cases applied : s.applyAll ms with
  | ok s' =>
    have done := (applies s').mp applied
    have answer := (commits s' done).answer
    refine ⟨⟨fun _ => ⟨s', done⟩, fun _ => ⟨_, answer⟩⟩, commits, ?_⟩
    intro e failed
    exact nomatch answer.symm.trans failed
  | error rejection =>
    obtain ⟨failed, left⟩ := handled_of_error retryer keyed holds planned nonempty applied
    refine ⟨⟨?_, ?_⟩, commits, fun _ _ => left⟩
    · rintro ⟨r, answer⟩
      exact nomatch failed.symm.trans answer
    · rintro ⟨s', done⟩
      exact nomatch applied.symm.trans ((applies s').mpr done)

end Handled

/-- A text with characters passes as required. -/
lemma required_of_ne {what text : String} (given : text ≠ "") :
    required what (some text) = .ok text := by
  simp [required, given]

/-- A request to change the names of a metric, or of a field of a metric, succeeds exactly where the
changes fit the one that is found by the name in the request. Then it makes one commit, in which
that metric or field is called otherwise and all else stays as it was; if not, nothing changes. -/
theorem updates_commit {b : Backing} {org : String} {version : Version} {s : Schema}
    {c : NameChanges} (retryer : Retryer) (keyed : b.Keyed) (holds : b.cells.Holds org version s)
    (room : b.limited = true → version + 1 < UInt64.size / 2) (owner : org ≠ "")
    (changes : c ≠ {}) :
    (∀ name, name ≠ "" →
      let run := handled retryer (.updateMetric (some org) (some name) c) b
      ((∃ r, run.1 = .ok r) ↔ ∃ m, s.metric? name = some m ∧ c.Fits s.metrics m)
        ∧ (∀ m, s.metric? name = some m → c.Fits s.metrics m →
          Commits b org (version + 1) (s.put { m with naming := c.applied m.naming }) run)
        ∧ ∀ e, run.1 = .error e → run.2.cells = b.cells)
      ∧ ∀ metric name, metric ≠ "" → name ≠ "" →
        let run := handled retryer (.updateField (some org) (some metric) (some name) c) b
        ((∃ r, run.1 = .ok r)
            ↔ ∃ m f, s.metric? metric = some m ∧ m.field? name = some f ∧ c.Fits m.fields f)
          ∧ (∀ m f, s.metric? metric = some m → m.field? name = some f → c.Fits m.fields f →
            Commits b org (version + 1)
              (s.put { m with fields := m.fields.put { f with naming := c.applied f.naming } }) run)
          ∧ ∀ e, run.1 = .error e → run.2.cells = b.cells := by
  obtain ⟨unambiguous, -⟩ := holds.sound
  constructor
  · intro name given
    have planned : (Request.updateMetric (some org) (some name) c).plan
        = .ok (.update org (c.ofMetric name) (some (.metric name))) := by
      rw [Request.plan, required_of_ne given, required_of_ne owner]
      rfl
    obtain ⟨succeeds, commits, fails⟩ := handled_update retryer keyed holds room planned
      (NameChanges.ne_nil_of_change changes name (c.change_ofMetric name))
      fun s' => NameChanges.applyAll_ofMetric unambiguous changes
    refine ⟨succeeds.trans ⟨?_, ?_⟩, fun m found fits => commits _ ⟨m, found, fits, rfl⟩, fails⟩
    · rintro ⟨_, m, found, fits, -⟩
      exact ⟨m, found, fits⟩
    · rintro ⟨m, found, fits⟩
      exact ⟨_, m, found, fits, rfl⟩
  · intro metric name given given'
    have planned : (Request.updateField (some org) (some metric) (some name) c).plan
        = .ok (.update org (c.ofField metric name) (some (.field metric name))) := by
      rw [Request.plan, required_of_ne given, required_of_ne given', required_of_ne owner]
      rfl
    obtain ⟨succeeds, commits, fails⟩ := handled_update retryer keyed holds room planned
      (NameChanges.ne_nil_of_change changes name (c.change_ofField metric name))
      fun s' => NameChanges.applyAll_ofField unambiguous changes
    refine ⟨succeeds.trans ⟨?_, ?_⟩,
      fun m f found inside fits => commits _ ⟨m, f, found, inside, fits, rfl⟩, fails⟩
    · rintro ⟨_, m, f, found, inside, fits, -⟩
      exact ⟨m, f, found, inside, fits⟩
    · rintro ⟨m, f, found, inside, fits⟩
      exact ⟨_, m, f, found, inside, fits, rfl⟩

/-- A metric is addressed by an alias that goes while another becomes its name and the old name an
alias; a field gets an alias and loses it again, after the one by which it is addressed. -/
theorem updates_commit_aliases :
    let s (metric field : Naming) : Schema :=
      ⟨⟨"acme", [], []⟩, ⟨9, [⟨3, metric, ⟨5, [⟨4, field, .string⟩]⟩⟩]⟩⟩
    let before := s ⟨"views", ["seen", "hits"]⟩ ⟨"page", ["url"]⟩
    let b := Backing.table "t" [("t", [⟨"acme", 9223372036854775806, before.encode⟩])]
    let retryer : Retryer := ⟨3, 100, by decide⟩
    let ofMetric := handled retryer
      (.updateMetric (some "acme") (some "seen") ⟨some "hits", ["views"], ["hits", "seen"]⟩) b
    let ofField := handled retryer
      (.updateField (some "acme") (some "seen") (some "url") ⟨none, ["link"], ["url", "link"]⟩) b
    ofMetric.1 = .ok (.committed "acme" 9223372036854775807 true)
      ∧ ofMetric.2.cells.Holds "acme" 9223372036854775807
        (s ⟨"hits", ["views"]⟩ ⟨"page", ["url"]⟩)
      ∧ ofField.2.cells.Holds "acme" 9223372036854775807
        (s ⟨"views", ["seen", "hits"]⟩ ⟨"page", []⟩) := by
  intro s before b retryer ofMetric ofField
  have keyed : b.Keyed := by
    show List.Nodup _
    decide +kernel
  have holds : b.cells.Holds "acme" 9223372036854775806 before :=
    Cells.Shows.holds
      ⟨by decide +kernel, (Schema.check_eq_ok (u := ())).mp (by decide +kernel), rfl⟩
  have promoted := ((updates_commit (c := ⟨some "hits", ["views"], ["hits", "seen"]⟩) retryer keyed
    holds (by decide) (by decide) (by decide)).1 "seen" (by decide)).2.1 _ rfl (by decide +kernel)
  have shortened := ((updates_commit (c := ⟨none, ["link"], ["url", "link"]⟩) retryer keyed
    holds (by decide) (by decide) (by decide)).2 "seen" "url" (by decide) (by decide)).2.1 _ _ rfl
      rfl (by decide +kernel)
  exact ⟨promoted.answer, promoted.holds, shortened.holds⟩

end MetricRegistry
