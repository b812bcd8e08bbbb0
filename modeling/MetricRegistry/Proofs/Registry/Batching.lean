import MetricRegistry.Proofs.Registry.Alone

/-!
# Batches may be joined

A commit of several changes is as good as several commits of some of them, but for the versions in
between. A commit writes its catalog out and the next one reads it back, so this needs that the
catalog in the middle passes the check: `Cells.Shows` says that a catalog is stored in its own
document, as each commit leaves it. By induction on the batches, what a sequence of commits leaves
is a function of the changes made one after the other (`alone_batches`), which is the same function
for one batch; `batches_compose` compares the two.
-/

namespace MetricRegistry

open Catalog

/-! ## What a commit finds and leaves -/

namespace Cells

/-- The document of an organization decodes to a catalog that belongs to it. -/
def Holds (cs : Cells) (org : String) (version : Version) (s : Schema) : Prop :=
  ∃ document, cs org = some (Stored.cell ⟨document, version⟩)
    ∧ schemaOf org ⟨document, version⟩ = .ok s

/-- The document of an organization is the one that its catalog is written as. -/
structure Shows (cs : Cells) (org : String) (version : Version) (s : Schema) : Prop where
  document : cs org = some (Stored.cell ⟨s.encode, version⟩)
  unambiguous : s.Unambiguous
  own : s.orgId = org

/-- The cells once a catalog is stored. -/
def put (cs : Cells) (org : String) (version : Version) (s : Schema) : Cells :=
  Function.update cs org (some (Stored.cell ⟨s.encode, version⟩))

variable {cs : Cells} {org : String} {version : Version} {s s' : Schema}

/-- Cells that show a catalog hold it. -/
lemma Shows.holds (shows : cs.Shows org version s) : cs.Holds org version s := by
  obtain ⟨document, unambiguous, rfl⟩ := shows
  exact ⟨s.encode, document, schemaOf_encode unambiguous version⟩

/-- A catalog that is held is sound and belongs to its org. -/
lemma Holds.sound (holds : cs.Holds org version s) : s.Unambiguous ∧ s.orgId = org := by
  obtain ⟨document, -, opened⟩ := holds
  obtain ⟨decoded, own⟩ := schemaOf_eq_ok.mp opened
  exact ⟨Schema.check_eq_ok.mp (Schema.check_of_decode decoded), own⟩

/-- A clerk reads the catalog that is held. -/
lemma Holds.ofReply (holds : cs.Holds org version s) :
    Clerk.ofReply org (cs.read org) = .ok ⟨version, s⟩ := by
  obtain ⟨document, held, decoded⟩ := holds
  rw [read_eq_ok_some.mpr held]
  simp [Clerk.ofReply, decoded, Except.map]

/-- Changes of a sound catalog give one that is stored soundly. -/
lemma Holds.put_applyAll {ms : List Mutation} (holds : cs.Holds org version s)
    (applied : s.applyAll ms = .ok s') (next : Version) :
    (cs.put org next s').Shows org next s' := by
  obtain ⟨unambiguous, own⟩ := holds.sound
  exact ⟨Function.update_self .., Schema.applyAll_unambiguous unambiguous applied,
    (Schema.applyAll_orgId applied).trans own⟩

/-- A second write to a cell replaces the first. -/
lemma put_put (next last : Version) : (cs.put org next s).put org last s' = cs.put org last s' :=
  Function.update_idem ..

/-- A write over the version that is held stores a catalog. -/
lemma Holds.write {limited : Bool} (holds : cs.Holds org version s)
    (room : limited = true → version + 1 < UInt64.size / 2) :
    cs.write limited org s'.encode (some version)
      = (.ok (.committed (version + 1)), cs.put org (version + 1) s') := by
  obtain ⟨document, held, -⟩ := holds
  exact write_of_read (read_eq_ok_some.mpr held) limited s'.encode room

end Cells

open Program (alone_read alone_write alone_andThen_of_ok alone_andThen_of_error)

section Commits

variable {limited : Bool} {cs : Cells} {org : String} {version : Version} {s s' : Schema}
variable {ms : List Mutation}

/-- A commit whose batch is rejected leaves the cells as they are. -/
lemma alone_commitChanges_of_error {rejection : Rejection} (holds : cs.Holds org version s)
    (nonempty : ms ≠ []) (refused : s.applyAll ms = .error rejection) :
    (ExceptT.run (commitChanges org ms)).alone limited cs = (.error (.rejected rejection), cs) := by
  rw [run_commitChanges, alone_read, holds.ofReply]
  simp [Committed.afterRead, nonempty, refused]

/-- A commit whose batch applies puts the next version in the cell. -/
lemma alone_commitChanges_of_ok (holds : cs.Holds org version s) (nonempty : ms ≠ [])
    (room : limited = true → version + 1 < UInt64.size / 2) (applied : s.applyAll ms = .ok s') :
    (ExceptT.run (commitChanges org ms)).alone limited cs
      = (.ok ⟨org, version + 1, s', true⟩, cs.put org (version + 1) s') := by
  rw [run_commitChanges, alone_read, holds.ofReply]
  simp only [Committed.afterRead, List.isEmpty_eq_false_iff.mpr nonempty, applied,
    Committed.writing]
  rw [if_neg Bool.false_ne_true, alone_write, holds.write room]
  rfl

/-- A batch that applies hands its catalog on to what follows it. -/
lemma applyAll_append_of_ok (applied : s.applyAll ms = .ok s') (ns : List Mutation) :
    s.applyAll (ms ++ ns) = s'.applyAll ns := by
  rw [Schema.applyAll, List.foldlM_append, ← Schema.applyAll, applied]
  rfl

/-- A batch that is rejected stays rejected, whatever follows it. -/
lemma applyAll_append_of_error {rejection : Rejection} (refused : s.applyAll ms = .error rejection)
    (ns : List Mutation) : s.applyAll (ms ++ ns) = .error rejection := by
  rw [Schema.applyAll, List.foldlM_append, ← Schema.applyAll, refused]
  rfl

/-- Commits of batches, one after the other, make all their changes, or stop at the rejection of
one. -/
lemma alone_batches {cs : Cells} {version : Version} {s : Schema} {ms : List Mutation}
    {rest : List (List Mutation)} (holds : cs.Holds org version s)
    (nonempty : ∀ batch ∈ ms :: rest, batch ≠ [])
    (room : limited = true → version + (ms :: rest).length < UInt64.size / 2) :
    match s.applyAll (ms :: rest).flatten with
    | .ok s' => ∃ commits, (ExceptT.run ((ms :: rest).mapM (commitChanges org))).alone limited cs
        = (.ok commits, cs.put org (version + (ms :: rest).length) s')
    | .error rejection => ((ExceptT.run ((ms :: rest).mapM (commitChanges org))).alone limited cs).1
        = .error (.rejected rejection) := by
  have some := nonempty ms (by simp)
  rw [List.flatten_cons, List.mapM_cons]
  cases applied : s.applyAll ms with
  | error rejection =>
    rw [applyAll_append_of_error applied,
      alone_andThen_of_error (alone_commitChanges_of_error holds some applied)]
  | ok s₁ =>
    have first : limited = true → version + 1 < UInt64.size / 2 := fun limit =>
      Nat.lt_of_le_of_lt (by simp) (room limit)
    rw [applyAll_append_of_ok applied,
      alone_andThen_of_ok (alone_commitChanges_of_ok holds some first applied)]
    -- the rest starts from the catalog that the first batch has put
    cases rest with
    | nil => exact ⟨_, rfl⟩
    | cons ns rest =>
      have later := alone_batches (holds.put_applyAll applied (version + 1)).holds
        (fun batch mem => nonempty batch (List.mem_cons_of_mem _ mem))
        fun limit => by simpa [Nat.add_assoc, Nat.add_comm 1] using room limit
      cases applied' : s₁.applyAll (ns :: rest).flatten with
      | error rejection =>
        rw [applied'] at later
        dsimp only at later ⊢
        rw [alone_andThen_of_error (Prod.ext later rfl)]
      | ok s₂ =>
        rw [applied'] at later
        obtain ⟨commits, later⟩ := later
        have steps : version + 1 + (ns :: rest).length = version + (ms :: ns :: rest).length := by
          simp [Nat.add_assoc, Nat.add_comm 1]
        rw [Cells.put_put, steps] at later
        dsimp only
        rw [alone_andThen_of_ok later]
        exact ⟨_, rfl⟩

end Commits

section Stores

variable {b : Backing} {org : String} {version : Version} {s s' : Schema} {ms : List Mutation}

/-- A commit that nobody disturbs. -/
def commit (org : String) (ms : List Mutation) (b : Backing) :
    Except RegistryError Committed × Backing :=
  ((commitChanges org ms).runOn Backing.store).run b

/-- Commits of batches, up to one that fails. -/
def commitEach (org : String) (batches : List (List Mutation)) (b : Backing) :
    Except RegistryError (List Committed) × Backing :=
  ((batches.mapM (commitChanges org)).runOn Backing.store).run b

/-- Against a backing, a commit whose batch applies puts the next version in the cell. -/
lemma commit_of_ok (keyed : b.Keyed) (holds : b.cells.Holds org version s) (nonempty : ms ≠ [])
    (room : b.limited = true → version + 1 < UInt64.size / 2) (applied : s.applyAll ms = .ok s') :
    ∃ b', commit org ms b = (.ok ⟨org, version + 1, s', true⟩, b') ∧ b'.Keyed
      ∧ b'.limited = b.limited ∧ b'.cells = b.cells.put org (version + 1) s' :=
  Backing.run_of_alone keyed (alone_commitChanges_of_ok holds nonempty room applied)

/-- Against a backing, a commit whose batch is rejected changes no cell. -/
lemma commit_of_error {rejection : Rejection} (keyed : b.Keyed)
    (holds : b.cells.Holds org version s) (nonempty : ms ≠ [])
    (refused : s.applyAll ms = .error rejection) :
    ∃ b', commit org ms b = (.error (.rejected rejection), b') ∧ b'.cells = b.cells := by
  obtain ⟨b', run, -, -, left⟩ :=
    Backing.run_of_alone keyed (alone_commitChanges_of_error holds nonempty refused)
  exact ⟨b', run, left⟩

/-- Commits of batches end as one commit of all their changes does. -/
lemma commitEach_flatten {rest : List (List Mutation)} (keyed : b.Keyed)
    (holds : b.cells.Holds org version s) (nonempty : ∀ batch ∈ ms :: rest, batch ≠ [])
    (room : b.limited = true → version + (ms :: rest).length < UInt64.size / 2) :
    (∃ e b₁ b', commit org (ms :: rest).flatten b = (.error e, b₁) ∧ b₁.cells = b.cells
        ∧ commitEach org (ms :: rest) b = (.error e, b'))
      ∨ ∃ c cs s' b₁ b', commit org (ms :: rest).flatten b = (.ok c, b₁)
        ∧ b₁.cells = b.cells.put org (version + 1) s'
        ∧ commitEach org (ms :: rest) b = (.ok cs, b')
        ∧ b'.cells = b.cells.put org (version + (ms :: rest).length) s' := by
  have joined : (ms :: rest).flatten ≠ [] := by
    simp [nonempty ms]
  obtain ⟨a, b', run, -, -, alone⟩ :=
    Backing.run_alone keyed (ExceptT.run ((ms :: rest).mapM (commitChanges org)))
  have batches := alone_batches holds nonempty room
  rw [alone] at batches
  cases applied : s.applyAll (ms :: rest).flatten with
  | error rejection =>
    rw [applied] at batches
    obtain rfl := batches
    obtain ⟨b₁, refused, left⟩ := commit_of_error keyed holds joined applied
    exact .inl ⟨_, b₁, b', refused, left, run⟩
  | ok s' =>
    rw [applied] at batches
    obtain ⟨cs, parted⟩ := batches
    obtain ⟨rfl, left'⟩ := Prod.mk.inj parted
    have first : b.limited = true → version + 1 < UInt64.size / 2 := fun limit =>
      Nat.lt_of_le_of_lt (by simp) (room limit)
    obtain ⟨b₁, done, -, -, left⟩ := commit_of_ok keyed holds joined first applied
    exact .inr ⟨_, cs, s', b₁, b', done, left, run, left'⟩

/-- Two commits end as one of all their changes does. -/
lemma commit_append {ns : List Mutation} (keyed : b.Keyed) (holds : b.cells.Holds org version s)
    (nonempty : ms ≠ []) (nonempty' : ns ≠ [])
    (room : b.limited = true → version + 2 < UInt64.size / 2) :
    (∃ e b₁, commit org (ms ++ ns) b = (.error e, b₁) ∧ b₁.cells = b.cells
        ∧ ((commit org ms b).1 = .error e
          ∨ ∃ c, (commit org ms b).1 = .ok c ∧ (commit org ns (commit org ms b).2).1 = .error e))
      ∨ ∃ c c' c'' s' b₁ b', commit org (ms ++ ns) b = (.ok c, b₁)
        ∧ b₁.cells = b.cells.put org (version + 1) s'
        ∧ (commit org ms b).1 = .ok c' ∧ commit org ns (commit org ms b).2 = (.ok c'', b')
        ∧ b'.cells = b.cells.put org (version + 2) s' := by
  have joined : ms ++ ns ≠ [] := List.append_ne_nil_of_left_ne_nil nonempty ns
  have room₁ : b.limited = true → version + 1 < UInt64.size / 2 := fun limit =>
    Nat.lt_of_succ_lt (room limit)
  cases applied : s.applyAll ms with
  | error rejection =>
    obtain ⟨b₁, refused, left⟩ :=
      commit_of_error keyed holds joined (applyAll_append_of_error applied ns)
    obtain ⟨b₂, refused', -⟩ := commit_of_error keyed holds nonempty applied
    exact .inl ⟨_, b₁, refused, left, .inl (by rw [refused'])⟩
  | ok s₁ =>
    obtain ⟨b₂, done, keyed₂, kind₂, left₂⟩ := commit_of_ok keyed holds nonempty room₁ applied
    have holds₂ : b₂.cells.Holds org (version + 1) s₁ :=
      left₂ ▸ (holds.put_applyAll applied (version + 1)).holds
    -- the second commit finds the catalog of the first one held again
    rw [done]
    cases applied' : s₁.applyAll ns with
    | error rejection =>
      obtain ⟨b₁, refused, left⟩ :=
        commit_of_error keyed holds joined ((applyAll_append_of_ok applied ns).trans applied')
      obtain ⟨b₃, refused', -⟩ := commit_of_error keyed₂ holds₂ nonempty' applied'
      exact .inl ⟨_, b₁, refused, left, .inr ⟨_, rfl, by rw [refused']⟩⟩
    | ok s₂ =>
      obtain ⟨b₁, whole, -, -, left⟩ :=
        commit_of_ok keyed holds joined room₁ ((applyAll_append_of_ok applied ns).trans applied')
      obtain ⟨b₃, done', -, -, left₃⟩ := commit_of_ok keyed₂ holds₂ nonempty'
        (fun limit => room (kind₂ ▸ limit)) applied'
      rw [left₂, Cells.put_put] at left₃
      exact .inr ⟨_, _, _, s₂, b₁, b₃, whole, left, rfl, done', left₃⟩

end Stores

/-- A batch of changes is as good as two, one after the other: it succeeds if both do, it fails as
the second one does, and it stores the same document with a version that is one lower. So it is with
any number of batches. -/
theorem batches_compose {b : Backing} {org : String} {version : Version} {s : Schema}
    {ms ns : List Mutation} (keyed : b.Keyed) (holds : b.cells.Holds org version s)
    (room : b.limited = true → version + 2 < UInt64.size / 2) (nonempty : ms ≠ [])
    (nonempty' : ns ≠ []) :
    (let whole := commit org (ms ++ ns) b
      let first := commit org ms b
      let second := commit org ns first.2
      ((∃ c, whole.1 = .ok c) ↔ (∃ c, first.1 = .ok c) ∧ ∃ c, second.1 = .ok c)
        ∧ (∀ c, whole.1 = .ok c → ∃ document,
          whole.2.cells org = some ⟨document, version + 1⟩
            ∧ second.2.cells org = some ⟨document, version + 2⟩)
        ∧ ∀ c e, first.1 = .ok c → second.1 = .error e →
          whole.1 = .error e ∧ whole.2.cells = b.cells)
      ∧ ∀ batches : List (List Mutation), batches ≠ [] → (∀ batch ∈ batches, batch ≠ []) →
        (b.limited = true → version + batches.length < UInt64.size / 2) →
        let whole := commit org batches.flatten b
        let parts := commitEach org batches b
        ((∃ c, whole.1 = .ok c) ↔ ∃ cs, parts.1 = .ok cs)
          ∧ (∀ c, whole.1 = .ok c → ∃ document,
            whole.2.cells org = some ⟨document, version + 1⟩
              ∧ parts.2.cells org = some ⟨document, version + batches.length⟩)
          ∧ ∀ e, parts.1 = .error e → whole.1 = .error e ∧ whole.2.cells = b.cells := by
  constructor
  · dsimp only
    rcases commit_append keyed holds nonempty nonempty' room with
      ⟨e, b₁, refused, left, stopped⟩ | ⟨c, c', c'', s', b₁, b', done, left, done', done'', left'⟩
    · rw [refused]
      rcases stopped with stopped | ⟨c', done, stopped⟩
      · simp [stopped]
      · simp [done, stopped, left]
    · simp [done, done', done'', left, left', Cells.put, Stored.cell]
  · intro batches some each fits
    obtain ⟨batch, rest, rfl⟩ := List.exists_cons_of_ne_nil some
    dsimp only
    rcases commitEach_flatten keyed holds each fits with
      ⟨e, b₁, b', refused, left, stopped⟩ | ⟨c, cs, s', b₁, b', done, left, done', left'⟩
    · rw [refused, stopped]
      simp [left]
    · rw [done, done']
      simp [left, left', Cells.put, Stored.cell]

/-- A metric is created and gets a field, in one batch or in two, with the last versions that a
table can hold. -/
theorem batches_compose_last_versions :
    let document := Text.utf8 "\x7b \"org_id\" : \"acme\", \"next_metric_id\" : 7 \x7d"
    let b := Backing.table "t" [("t", [⟨"acme", 9223372036854775805, document⟩])]
    let create := Mutation.createMetric "clicks" ["hits"]
    let extend := Mutation.createField "hits" "page" .string []
    ∃ document',
      (commit "acme" [create, extend] b).2.cells "acme" = some ⟨document', 9223372036854775806⟩
        ∧ (commit "acme" [extend] (commit "acme" [create] b).2).2.cells "acme"
          = some ⟨document', 9223372036854775807⟩ := by
  intro document b create extend
  have keyed : b.Keyed := by
    show List.Nodup _
    decide +kernel
  have holds : b.cells.Holds "acme" 9223372036854775805 ⟨⟨"acme", [], []⟩, ⟨7, []⟩⟩ :=
    ⟨document, by decide +kernel, by decide +kernel⟩
  have twice := (batches_compose keyed holds (by decide) (List.cons_ne_nil create [])
    (List.cons_ne_nil extend [])).1
  have whole : (commit "acme" [create, extend] b).1
      = .ok ⟨"acme", 9223372036854775806, ⟨⟨"acme", [], []⟩,
        ⟨8, [⟨7, ⟨"clicks", ["hits"]⟩, ⟨2, [⟨1, ⟨"page", []⟩, .string⟩]⟩⟩]⟩⟩, true⟩ := by
    decide +kernel
  exact twice.2.1 _ whole

end MetricRegistry
