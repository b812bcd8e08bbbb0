import MetricRegistry.Proofs.Registry.Overtaking
import MetricRegistry.Proofs.Request.Demands
import MetricRegistry.Proofs.Request.Updates

/-!
# Operations that change nothing

A clerk, a commit of no changes and an update without changes each read the document of an
organization once and answer from that. `Program.run_read_cells` says what such a program gives on a
store of any content, decodable or not. `unchanged_agrees` concludes that the three ways of looking
at a catalog never disagree: not on the version and the schema, not on the error, and not on which
of two missing things is reported.
-/

namespace MetricRegistry

open Catalog

section Looks

variable {α : Type} {b : Backing} {org : String}

/-- A program that starts with a read goes on with what is held. -/
lemma Program.run_read_cells (key : String)
    (resume : Except RegistryError (Option Stored) → Program α) (b : Backing) :
    ((read key resume).run Backing.store).run b
      = ((resume (b.cells.read key)).run Backing.store).run b :=
  StateM.run_bind_of_run (Backing.run_read_cells b key)

/-- What a new clerk shows of an organization. -/
def look (org : String) (b : Backing) : Except RegistryError Clerk × Backing :=
  ((Clerk.opened org).runOn Backing.store).run b

/-- A commit that is tried again after a conflict. -/
def commitRetried (retryer : Retryer) (org : String) (ms : List Mutation) (b : Backing) :
    Except RegistryError Committed × Backing :=
  ((retryer.run (ExceptT.run (commitChanges org ms))).run Backing.store).run b

/-- The metric that a new clerk finds by a name. -/
def lookForMetric (org metric : String) (b : Backing) : Except RegistryError Metric := do
  let c ← (look org b).1
  (c.metric metric).mapError .rejected

/-- The field that a new clerk finds by a name, of the metric that it finds by another. -/
def lookForField (org metric field : String) (b : Backing) : Except RegistryError Field := do
  let c ← (look org b).1
  (c.field metric field).mapError .rejected

/-- A look answers what a clerk makes of the cell and changes nothing. -/
lemma look_eq (org : String) (b : Backing) :
    look org b = (Clerk.ofReply org (b.cells.read org), b) := by
  rw [look, Action.runOn, run_opened, Program.run_read_cells]
  rfl

/-- Whoever looks at a catalog sees the one of the organization that was asked for. -/
lemma Clerk.orgId_of_ofReply {reply : Except RegistryError (Option Stored)} {c : Clerk}
    (opened : ofReply org reply = .ok c) : c.schema.orgId = org := by
  obtain e | _ | stored := reply
  · cases opened
  · cases opened
  · simp only [ofReply] at opened
    cases decoded : schemaOf org stored with
    | error e =>
      rw [decoded] at opened
      cases opened
    | ok s =>
      rw [decoded] at opened
      cases opened
      exact (schemaOf_eq_ok.mp decoded).2

/-- What stops a clerk is no conflict. -/
lemma Clerk.ofReply_isConflict {cs : Cells} {e : RegistryError}
    (failed : ofReply org (cs.read org) = .error e) : e.isConflict = false := by
  cases reply : cs.read org with
  | error e' =>
    rw [reply] at failed
    cases failed
    exact Cells.read_isConflict reply
  | ok stored =>
    rw [reply] at failed
    cases stored with
    | none =>
      cases failed
      rfl
    | some stored =>
      simp only [ofReply] at failed
      cases decoded : schemaOf org stored with
      | error e' =>
        rw [decoded] at failed
        cases failed
        exact schemaOf_isConflict decoded
      | ok s =>
        rw [decoded] at failed
        cases failed

end Looks

section Commits

variable {b : Backing} {org : String} {ms : List Mutation} {e : RegistryError}

/-- What a commit of no changes makes of what it found. -/
def Committed.unchanged (org : String) (c : Clerk) : Committed :=
  ⟨org, c.version, c.schema, false⟩

/-- A commit of no mutations is a look. -/
lemma commit_nil (org : String) (b : Backing) :
    commit org [] b = ((look org b).1.map (Committed.unchanged org), b) := by
  rw [commit, Action.runOn, run_commitChanges, Program.run_read_cells, look_eq]
  cases Clerk.ofReply org (b.cells.read org) <;> rfl

/-- A commit fails as the clerk does that it starts with, before anything is written. -/
lemma commit_of_look_error (failed : (look org b).1 = .error e) (ms : List Mutation) :
    commit org ms b = (.error e, b) := by
  rw [look_eq] at failed
  dsimp only at failed
  rw [commit, Action.runOn, run_commitChanges, Program.run_read_cells, failed]
  rfl

/-- A commit of no changes is never tried again. -/
lemma commitRetried_nil (retryer : Retryer) (org : String) (b : Backing) :
    commitRetried retryer org [] b = commit org [] b := by
  obtain ⟨n, more⟩ := Nat.exists_eq_succ_of_ne_zero (Nat.pos_iff_ne_zero.mp retryer.attempts_pos)
  rw [commitRetried, Retryer.run, more, Retryer.loop, run_commitChanges, commit, Action.runOn,
    run_commitChanges, Program.read_bind, Program.run_read_cells, Program.run_read_cells]
  cases opened : Clerk.ofReply org (b.cells.read org) with
  | ok c => rfl
  | error e =>
    simp only [Committed.afterRead, Program.done_bind, Clerk.ofReply_isConflict opened]
    rfl

end Commits

section Updates

variable {b : Backing} {retryer : Retryer} {request : Request} {org : String}
variable {target : Option Target}

/-- What an update without changes is answered, from what a clerk shows. -/
def Clerk.answer (target : Option Target) (c : Clerk) : Except RegistryError Response := do
  (c.checkTarget target).mapError .rejected
  return .committed c.schema.orgId c.version false

/-- A plan that changes nothing is one read and what a clerk makes of it. -/
lemma run_unchanged (org : String) (target : Option Target) :
    ExceptT.run (unchanged org target)
      = .read org fun r => .done (Clerk.ofReply org r >>= Clerk.answer target) := by
  rw [unchanged, ExceptT.run_bind, run_opened, Program.read_bind]
  congr 1
  funext r
  rw [Program.done_bind]
  cases Clerk.ofReply org r with
  | error e => rfl
  | ok c =>
    simp only [bind, Except.bind, Clerk.answer]
    cases c.checkTarget target <;> rfl

/-- A request that changes nothing is handled by a look. -/
lemma handled_unchanged (planned : request.plan = .ok (.update org [] target)) :
    handled retryer request b = ((look org b).1 >>= Clerk.answer target, b) := by
  have handles : handle retryer request = unchanged org target := by
    rw [handle, planned]
    rfl
  rw [handled, handles, Action.runOn, run_unchanged, Program.run_read_cells, look_eq]
  rfl

/-- An update without changes is answered as a commit of no changes where what it is about is there,
and where it is not with what is missing. -/
structure AnswersUnchanged {α : Type} (found : Except RegistryError α)
    (committed : Except RegistryError Committed) (run : Except RegistryError Response) : Prop where
  there : ∀ a, found = .ok a → ∃ c, committed = .ok c ∧ c.changed = false ∧ run = .ok c.response
  missing : ∀ e, found = .error e → run = .error e

/-- It is so where the look-up checks what the update checks. -/
lemma answersUnchanged_of {α : Type} {b : Backing} {find : Clerk → Except Rejection α}
    (checks : ∀ c : Clerk, c.checkTarget target = (find c).map fun _ => ()) :
    AnswersUnchanged ((look org b).1 >>= fun c => (find c).mapError .rejected) (commit org [] b).1
      ((look org b).1 >>= Clerk.answer target) := by
  rw [commit_nil]
  cases opened : (look org b).1 with
  | error e =>
    refine ⟨nofun, fun _ failed => ?_⟩
    cases failed
    rfl
  | ok c =>
    have own : c.schema.orgId = org := by
      rw [look_eq] at opened
      exact Clerk.orgId_of_ofReply opened
    have answer : (Except.ok c >>= Clerk.answer target) = c.answer target := rfl
    have found : (Except.ok c >>= fun c => (find c).mapError RegistryError.rejected)
      = (find c).mapError .rejected := rfl
    rw [answer, found, Clerk.answer, checks c]
    cases find c with
    | error e =>
      refine ⟨nofun, fun _ failed => ?_⟩
      cases failed
      rfl
    | ok a =>
      refine ⟨fun _ _ => ⟨Committed.unchanged org c, rfl, rfl, ?_⟩, nofun⟩
      rw [Committed.response, Committed.unchanged, ← own]
      rfl

end Updates

/-- Whatever a store holds, a clerk and a commit of no changes show the same or fail alike, and then
every commit fails so and writes nothing. An update of a tenant that gives neither list is answered
as that commit is; one of a metric or a field without changes is too where a new clerk finds what it
is about, and fails with the error of the look-up where not. -/
theorem unchanged_agrees (b : Backing) (retryer : Retryer) (org : String) (owner : org ≠ "") :
    ((look org b).2 = b ∧ (∀ c, (look org b).1 = .ok c → c.schema.orgId = org)
        ∧ commit org [] b
          = ((look org b).1.map fun c => ⟨c.schema.orgId, c.version, c.schema, false⟩, b)
        ∧ ∀ e, (look org b).1 = .error e → ∀ ms, ms ≠ [] → commit org ms b = (.error e, b))
      ∧ commitRetried retryer org [] b = commit org [] b
      ∧ handled retryer (.updateTenant (some org) none none) b
        = ((commitRetried retryer org [] b).1.map Committed.response, b)
      ∧ (∀ metric, metric ≠ "" →
        let run := handled retryer (.updateMetric (some org) (some metric) {}) b
        run.2 = b
          ∧ AnswersUnchanged (lookForMetric org metric b) (commitRetried retryer org [] b).1 run.1)
      ∧ ∀ metric field, metric ≠ "" → field ≠ "" →
        let run := handled retryer (.updateField (some org) (some metric) (some field) {}) b
        run.2 = b ∧ AnswersUnchanged (lookForField org metric field b)
          (commitRetried retryer org [] b).1 run.1 := by
  have own : ∀ c, (look org b).1 = .ok c → c.schema.orgId = org := fun c opened => by
    rw [look_eq] at opened
    exact Clerk.orgId_of_ofReply opened
  -- a commit of no changes never conflicts, so it is not tried again
  rw [commitRetried_nil]
  refine ⟨⟨by rw [look_eq], own, ?_, fun e failed ms _ => commit_of_look_error failed ms⟩, rfl, ?_,
    ?_, ?_⟩
  · rw [commit_nil]
    cases opened : (look org b).1 with
    | error e => rfl
    | ok c => rw [Except.map, Except.map, Committed.unchanged, own c opened]
  · have planned :
        (Request.updateTenant (some org) none none).plan = .ok (.update org [] none) := by
      rw [Request.plan, required_of_ne owner]
      rfl
    rw [handled_unchanged planned, commit_nil]
    cases opened : (look org b).1 with
    | error e => rfl
    | ok c =>
      have answer : (Except.ok c >>= Clerk.answer none)
        = .ok (.committed c.schema.orgId c.version false) := rfl
      rw [answer, own c opened]
      rfl
  · intro metric given
    have planned : (Request.updateMetric (some org) (some metric) {}).plan
        = .ok (.update org [] (some (.metric metric))) := by
      rw [Request.plan, required_of_ne given, required_of_ne owner]
      rfl
    rw [handled_unchanged planned]
    refine ⟨rfl, answersUnchanged_of fun c => ?_⟩
    rw [Clerk.checkTarget]
    cases c.metric metric <;> rfl
  · intro metric field given given'
    have planned : (Request.updateField (some org) (some metric) (some field) {}).plan
        = .ok (.update org [] (some (.field metric field))) := by
      rw [Request.plan, required_of_ne given, required_of_ne given', required_of_ne owner]
      rfl
    rw [handled_unchanged planned]
    refine ⟨rfl, answersUnchanged_of fun c => ?_⟩
    rw [Clerk.checkTarget]
    cases c.field metric field <;> rfl

/-- An update of a field is answered with the version of the catalog, or with the metric that is
missing and not the field; under another key the same document is damage to all, as is a version
below zero. -/
theorem unchanged_agrees_damaged :
    let s : Schema :=
      ⟨⟨"acme", [], []⟩, ⟨9, [⟨3, ⟨"views", ["seen"]⟩, ⟨5, [⟨4, ⟨"page", []⟩, .string⟩]⟩⟩]⟩⟩
    let b := Backing.table "t"
      [("t", [⟨"acme", 6, s.encode⟩, ⟨"shop", 2, s.encode⟩, ⟨"torn", -1, s.encode⟩])]
    let retryer : Retryer := ⟨3, 100, by decide⟩
    let update (org metric field : String) :=
      handled retryer (.updateField (some org) (some metric) (some field) {}) b
    (update "acme" "seen" "page").1 = .ok (.committed "acme" 6 false)
      ∧ (update "acme" "hits" "link").1 = .error (.rejected (.notFound .metric "hits"))
      ∧ (update "torn" "seen" "page").1 = .error (.corruption (.negativeVersion (-1)))
      ∧ commit "shop" [.deleteMetric "seen"] b
        = (.error (.corruption (.foreign "shop" "acme")), b) := by
  intro s b retryer update
  have acme := unchanged_agrees b retryer "acme" (by decide)
  have torn := unchanged_agrees b retryer "torn" (by decide)
  have shop := unchanged_agrees b retryer "shop" (by decide)
  have held : (look "acme" b).1 = .ok ⟨6, s⟩ := by decide +kernel
  refine ⟨?_, ?_, ?_, ?_⟩
  · have page : lookForField "acme" "seen" "page" b = .ok ⟨4, ⟨"page", []⟩, .string⟩ := by
      decide +kernel
    obtain ⟨c, committed, -, answer⟩ :=
      (acme.2.2.2.2 "seen" "page" (by decide) (by decide)).2.there _ page
    rw [acme.2.1, acme.1.2.2.1, held] at committed
    cases committed
    exact answer
  · exact (acme.2.2.2.2 "hits" "link" (by decide) (by decide)).2.missing _ (by decide +kernel)
  · exact (torn.2.2.2.2 "seen" "page" (by decide) (by decide)).2.missing _ (by decide +kernel)
  · exact shop.1.2.2.2 _ (by decide +kernel) _ (List.cons_ne_nil _ _)

end MetricRegistry
