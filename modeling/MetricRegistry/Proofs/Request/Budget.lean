import MetricRegistry.Proofs.Registry.Isolation
import MetricRegistry.Proofs.Registry.Overtaking
import MetricRegistry.Proofs.Registry.Traces
import MetricRegistry.Proofs.Request.Demands
import MetricRegistry.Request.Handler

/-!
# What a request costs

A request that lacks a field it requires is answered without a call of the store, and no other is
answered so. `Task.Spends` says what the others may call: a question and an update without changes
read once, a creation writes at most once, and an update reads in each of its attempts and writes in
those that get so far; all attempts but the last are lost. `runs_perform` says so of every run of a
plan, whatever the store replies, and `handle_budget` of requests among rivals and failures.
-/

namespace MetricRegistry

open Catalog

/-! ## Attempts of an update -/

/-- What an attempt makes of the reply to its read: the version it expects and the catalog it
writes. -/
def prepared (org : String) (ms : List Mutation) (reply : Except RegistryError (Option Stored)) :
    Except RegistryError (Version × Schema) := do
  let base ← Clerk.ofReply org reply
  let s ← (base.schema.applyAll ms).mapError .rejected
  return (base.version, s)

/-- The calls of an attempt that somebody else overtook. -/
inductive LostAttempt (org : String) (ms : List Mutation) : List StoreCall → Prop where
  | conflict {reply version s actual} :
    prepared org ms reply = .ok (version, s) →
    LostAttempt org ms
      [.read org reply, .write org s.encode (some version) (.ok (.conflict actual))]

/-- The calls of an attempt: there is no write if there is nothing to write. -/
inductive Attempt (org : String) (ms : List Mutation) : List StoreCall → Prop where
  | failed {reply e} :
    prepared org ms reply = .error e →
    Attempt org ms [.read org reply]
  | wrote {reply version s outcome} :
    prepared org ms reply = .ok (version, s) →
    Attempt org ms [.read org reply, .write org s.encode (some version) outcome]

/-- The calls of several attempts, all lost but the last. -/
def Tries (attempts : ℕ) (org : String) (ms : List Mutation) (calls : List StoreCall) : Prop :=
  ∃ (lost : List (List StoreCall)) (last : List StoreCall), lost.length < attempts
    ∧ (∀ a ∈ lost, LostAttempt org ms a) ∧ Attempt org ms last ∧ calls = lost.flatten ++ last

/-- An attempt that is lost is an attempt. -/
lemma LostAttempt.attempt {org : String} {ms : List Mutation} {calls : List StoreCall}
    (lost : LostAttempt org ms calls) : Attempt org ms calls := by
  cases lost with
  | conflict ready => exact .wrote ready

/-- A result that does not say that a field is missing. -/
def Complete {α : Type} (r : Except RegistryError α) : Prop :=
  ∀ name, r ≠ .error (.rejected (.missingField name))

/-- A result after which there is no further attempt. -/
def Settled {α : Type} (r : Except RegistryError α) : Prop :=
  Complete r ∧ ∀ e, r = .error e → e.isConflict = false

section Settled

variable {α β : Type} {r : Except RegistryError α}

/-- A result without an error is complete. -/
lemma complete_ok (a : α) : Complete (.ok a) :=
  nofun

/-- A result without an error is settled. -/
lemma settled_ok (a : α) : Settled (.ok a) :=
  ⟨nofun, nofun⟩

/-- A computation in two parts is complete if both are. -/
lemma Complete.bind {f : α → Except RegistryError β} (first : Complete r)
    (rest : ∀ a, Complete (f a)) : Complete (r >>= f) := by
  intro name eq
  rcases Except.bind_eq_error.mp eq with failed | ⟨a, -, failed⟩
  · exact first name failed
  · exact rest a name failed

/-- A computation in two parts is settled if both are. -/
lemma Settled.bind {f : α → Except RegistryError β} (first : Settled r)
    (rest : ∀ a, Settled (f a)) : Settled (r >>= f) := by
  refine ⟨first.1.bind fun a => (rest a).1, fun e eq => ?_⟩
  rcases Except.bind_eq_error.mp eq with failed | ⟨a, -, failed⟩
  · exact first.2 e failed
  · exact (rest a).2 e failed

/-- Whether an error is complete does not depend on the results beside it. -/
lemma Complete.error {e : RegistryError} (complete : Complete (.error e : Except RegistryError α)) :
    Complete (.error e : Except RegistryError β) := by
  rintro name eq
  cases eq
  exact complete name rfl

/-- Whether an error is settled does not depend on the results beside it. -/
lemma Settled.error {e : RegistryError} (settled : Settled (.error e : Except RegistryError α)) :
    Settled (.error e : Except RegistryError β) := by
  refine ⟨settled.1.error, ?_⟩
  rintro e' eq
  cases eq
  exact settled.2 e rfl

/-- What a store replies is settled. -/
lemma Served.settled (served : Served r) : Settled r := by
  refine ⟨?_, fun e eq => (served e eq).1⟩
  rintro name rfl
  cases (served _ rfl).2

/-- What the catalog judges is settled. -/
lemma Judged.settled {x : Except Rejection α} (judged : Judged x) :
    Settled (x.mapError .rejected) := by
  refine ⟨fun name eq => ?_, fun e eq => ?_⟩
  · obtain ⟨_, failed, missing⟩ := Except.mapError_eq_error.mp eq
    cases missing
    exact judged name failed
  · obtain ⟨_, -, rfl⟩ := Except.mapError_eq_error.mp eq
    rfl

end Settled

/-- A document that cannot be used is the fault of the store. -/
lemma served_schemaOf (key : String) (stored : Stored) : Served (schemaOf key stored) := by
  have read : Served ((Json.whole Schema.read stored.document).mapError .serialization) := by
    intro e eq
    obtain ⟨_, -, rfl⟩ := Except.mapError_eq_error.mp eq
    exact ⟨rfl, rfl⟩
  have checked (s : Schema) :
      Served (s.check.mapError fun violation => .corruption (.inconsistent s.orgId violation)) := by
    intro e eq
    obtain ⟨_, -, rfl⟩ := Except.mapError_eq_error.mp eq
    exact ⟨rfl, rfl⟩
  refine (read.bind fun s => (checked s).bind fun _ => served_ok s).bind fun s => ?_
  dsimp only
  split
  · exact (served_corruption _).bind fun _ => served_ok s
  · exact served_ok s

section Attempts

variable {org : String} {ms : List Mutation} {reply : Except RegistryError (Option Stored)}

/-- What is made of a reply is settled. -/
lemma settled_ofReply (served : Served reply) : Settled (Clerk.ofReply org reply) := by
  obtain e | _ | stored := reply
  · exact served.settled.error
  · refine ⟨nofun, ?_⟩
    rintro e eq
    cases eq
    rfl
  · exact ((served_schemaOf org stored).bind fun _ => served_ok _).settled

/-- What is prepared from a reply is settled. -/
lemma settled_prepared (served : Served reply) : Settled (prepared org ms reply) :=
  (settled_ofReply served).bind fun base =>
    (Schema.judged_applyAll base.schema ms).settled.bind fun _ => settled_ok _

/-- After its reply an attempt writes what it has prepared, or ends. -/
lemma afterRead_eq (nonempty : ms ≠ []) :
    Committed.afterRead org ms (Clerk.ofReply org reply) = match prepared org ms reply with
      | .error e => .done (.error e)
      | .ok (version, s) =>
          Committed.writing org s (some version) (.conflict org (some version)) := by
  unfold prepared
  cases Clerk.ofReply org reply with
  | error e => rfl
  | ok base =>
    rw [Committed.afterRead, if_neg (by simpa using nonempty)]
    dsimp only [bind, Except.bind]
    cases base.schema.applyAll ms <;> rfl

/-- An attempt that is not lost ends in a result that settles the matter. -/
lemma runs_attempt {calls : List StoreCall} {r : Except RegistryError Committed}
    (nonempty : ms ≠ []) (runs : Program.Runs (ExceptT.run (commitChanges org ms)) calls r) :
    (∃ e, r = .error e ∧ e.isConflict = true ∧ LostAttempt org ms calls)
      ∨ (Attempt org ms calls ∧ Settled r) := by
  rw [run_commitChanges] at runs
  cases runs with
  | @read _ _ reply _ _ served rest =>
    have settled : Settled (prepared org ms reply) := settled_prepared served
    dsimp only at rest
    rw [afterRead_eq nonempty] at rest
    cases ready : prepared org ms reply with
    | error e =>
      rw [ready] at rest settled
      cases rest
      exact .inr ⟨.failed ready, settled.error⟩
    | ok base =>
      obtain ⟨version, s⟩ := base
      rw [ready] at rest
      cases rest with
      | @write _ _ _ _ outcome _ _ served' last =>
        cases last
        obtain e | _ | _ := outcome
        · exact .inr ⟨.wrote ready, served'.settled.error⟩
        · exact .inr ⟨.wrote ready, settled_ok _⟩
        · exact .inl ⟨_, rfl, rfl, .conflict ready⟩

/-- Of the attempts of an update all but the last are lost, and there are no more than allowed. -/
lemma runs_loop {calls : List StoreCall} {r : Except RegistryError Committed} {n : ℕ}
    {start : RegistryError} (nonempty : ms ≠ []) (positive : 0 < n)
    (runs : Program.Runs (Retryer.loop (ExceptT.run (commitChanges org ms)) n start) calls r) :
    Tries n org ms calls ∧ Complete r := by
  induction n generalizing calls start with
  | zero => cases positive
  | succ n ih =>
    obtain ⟨first, rest, r', rfl, attempt, goOn⟩ := Program.runs_bind runs
    rcases runs_attempt nonempty attempt with ⟨e, rfl, conflict, lost⟩ | ⟨last, settled⟩
    · dsimp only at goOn
      rw [if_pos conflict] at goOn
      -- a lost attempt is the last one if no other is left
      cases n with
      | zero =>
        cases goOn
        refine ⟨⟨[], first, positive, nofun, lost.attempt, List.append_nil _⟩, ?_⟩
        rintro name eq
        cases eq
        cases conflict
      | succ n =>
        obtain ⟨⟨losts, last, fewer, all, final, rfl⟩, complete⟩ := ih n.succ_pos goOn
        refine ⟨⟨first :: losts, last, Nat.succ_lt_succ fewer, ?_, final, ?_⟩, complete⟩
        · exact List.forall_mem_cons.mpr ⟨lost, all⟩
        · rw [List.flatten_cons, List.append_assoc]
    · have ended : rest = [] ∧ r = r' := by
        cases r' with
        | ok c =>
          cases goOn
          exact ⟨rfl, rfl⟩
        | error e =>
          dsimp only at goOn
          rw [if_neg (by simp [settled.2 e rfl])] at goOn
          cases goOn
          exact ⟨rfl, rfl⟩
      obtain ⟨rfl, rfl⟩ := ended
      exact ⟨⟨[], first, n.succ_pos, nofun, last, List.append_nil _⟩, settled.1⟩

end Attempts

/-! ## Tasks -/

/-- The changes that a plan makes. -/
def Plan.mutations : Plan → List Mutation
  | .update _ ms _ => ms
  | _ => []

/-- What is called for a task. -/
def Task.Spends (attempts : ℕ) (org : String) (ms : List Mutation) (calls : List StoreCall) :
    Task → Prop
  | .question => ∃ reply, calls = [.read org reply]
  | .creation => calls = [] ∨ ∃ document reply, calls = [.write org document none reply]
  | .idle => ∃ reply, calls = [.read org reply]
  | .changes => Tries attempts org ms calls

section Tasks

variable {org : String} {calls : List StoreCall} {r : Except RegistryError Response}

/-- A creation writes once, or not at all if its document cannot be made. -/
lemma runs_commitNew {r : Except RegistryError Committed}
    (runs : Program.Runs (ExceptT.run (commitNew org)) calls r) :
    (calls = [] ∨ ∃ document reply, calls = [.write org document none reply]) ∧ Complete r := by
  rw [run_commitNew] at runs
  cases made : Schema.ofOrg org with
  | error violation =>
    rw [made] at runs
    cases runs
    exact ⟨.inl rfl, nofun⟩
  | ok s =>
    rw [made] at runs
    cases runs with
    | @write _ _ _ _ outcome _ _ served last =>
      cases last
      refine ⟨.inr ⟨_, _, rfl⟩, ?_⟩
      obtain e | _ | _ := outcome
      · exact served.settled.error.1
      · exact complete_ok _
      · exact nofun

/-- A clerk reads once. -/
lemma runs_opened {r : Except RegistryError Clerk}
    (runs : Program.Runs (ExceptT.run (Clerk.opened org)) calls r) :
    (∃ reply, calls = [.read org reply]) ∧ Settled r := by
  rw [run_opened] at runs
  cases runs with
  | read served last =>
    cases last
    exact ⟨⟨_, rfl⟩, settled_ofReply served⟩

/-- Whoever only looks at a catalog reads it once. -/
lemma runs_look {answer : Clerk → Action Response}
    (quiet : ∀ c, ∃ r, ExceptT.run (answer c) = .done r ∧ Complete r)
    (runs : Program.Runs (ExceptT.run (Clerk.opened org >>= answer)) calls r) :
    (∃ reply, calls = [.read org reply]) ∧ Complete r := by
  rcases Program.runs_andThen runs with ⟨e, rfl, opened⟩ | ⟨before, after, c, rfl, opened, last⟩
  · obtain ⟨read, settled⟩ := runs_opened opened
    exact ⟨read, settled.error.1⟩
  · obtain ⟨r', done, complete⟩ := quiet c
    rw [done] at last
    cases last
    rw [List.append_nil]
    exact ⟨(runs_opened opened).1, complete⟩

/-- Looking for a metric judges. -/
lemma judged_metric (c : Clerk) (name : String) : Judged (c.metric name) := by
  unfold Clerk.metric
  split
  · exact judged_ok _
  · exact judged_error nofun

/-- Looking for the target of an update judges. -/
lemma judged_checkTarget (c : Clerk) (target : Option Target) : Judged (c.checkTarget target) := by
  obtain _ | ⟨metric⟩ | ⟨metric, field⟩ := target
  · exact judged_ok _
  · exact (judged_metric c metric).bind fun _ => judged_ok _
  · refine Judged.bind ((judged_metric c metric).bind fun m => ?_) fun _ => judged_ok _
    cases m.field? field with
    | some f => exact judged_ok _
    | none => exact judged_error nofun

/-- An answer to what is judged is complete and calls for nothing. -/
lemma Judged.answered {α : Type} {x : Except Rejection α} (judged : Judged x) (f : α → Response) :
    ∃ r, ExceptT.run (do
      let a ← Action.ofExcept (x.mapError .rejected)
      return f a) = .done r ∧ Complete r := by
  cases x with
  | error e => exact ⟨_, rfl, judged.settled.error.1⟩
  | ok a => exact ⟨_, rfl, complete_ok _⟩

/-- Whatever the store replies, a plan calls what its task may, and its result does not say that a
field is missing. -/
lemma runs_perform {retryer : Retryer} {plan : Plan}
    (runs : Program.Runs (ExceptT.run (plan.perform retryer)) calls r) :
    plan.task.Spends retryer.attempts plan.org plan.mutations calls ∧ Complete r := by
  cases plan with
  | createOrg org =>
    rcases Program.runs_andThen runs with ⟨e, rfl, new⟩ | ⟨before, after, c, rfl, new, last⟩
    · obtain ⟨spent, complete⟩ := runs_commitNew new
      exact ⟨spent, complete.error⟩
    · cases last
      rw [List.append_nil]
      exact ⟨(runs_commitNew new).1, complete_ok _⟩
  | update org ms target =>
    rw [Plan.perform] at runs
    cases ms with
    | nil => exact runs_look (fun c => (judged_checkTarget c target).answered _) runs
    | cons m ms =>
      rcases Program.runs_andThen runs with ⟨e, rfl, tried⟩ | ⟨before, after, c, rfl, tried, last⟩
      · obtain ⟨spent, complete⟩ := runs_loop (List.cons_ne_nil m ms) retryer.attempts_pos tried
        exact ⟨spent, complete.error⟩
      · cases last
        rw [List.append_nil]
        exact ⟨(runs_loop (List.cons_ne_nil m ms) retryer.attempts_pos tried).1, complete_ok _⟩
  | getMetrics org => exact runs_look (fun c => ⟨_, rfl, complete_ok _⟩) runs
  | getMetric org metric =>
    exact runs_look (fun c => (judged_metric c metric).answered _) runs
  | getTenant org => exact runs_look (fun c => ⟨_, rfl, complete_ok _⟩) runs

end Tasks

/-! ## Counts -/

/-- How many reads and writes a task may take. -/
def Task.Affords (attempts reads writes : ℕ) : Task → Prop
  | .question => reads = 1 ∧ writes = 0
  | .creation => reads = 0 ∧ writes ≤ 1
  | .idle => reads = 1 ∧ writes = 0
  | .changes => ∃ k, 1 ≤ k ∧ k ≤ attempts ∧ reads = k ∧ (writes = k - 1 ∨ writes = k)

/-- Every call is a read or a write. -/
lemma StoreCall.length_eq (calls : List StoreCall) :
    calls.length = calls.countP isRead + calls.countP isWrite := by
  have write : isWrite = fun c => !c.isRead := rfl
  simp [List.length_eq_countP_add_countP isRead, write]

/-- Each attempt that is lost is a read and a write. -/
lemma countP_lost {org : String} {ms : List Mutation} {lost : List (List StoreCall)}
    (all : ∀ a ∈ lost, LostAttempt org ms a) :
    lost.flatten.countP StoreCall.isRead = lost.length
      ∧ lost.flatten.countP StoreCall.isWrite = lost.length := by
  induction lost with
  | nil => exact ⟨rfl, rfl⟩
  | cons a lost ih =>
    obtain ⟨first, rest⟩ := List.forall_mem_cons.mp all
    obtain ⟨reads, writes⟩ := ih rest
    cases first
    rw [List.flatten_cons, List.countP_append, List.countP_append, reads, writes]
    exact ⟨Nat.add_comm 1 _, Nat.add_comm 1 _⟩

/-- Attempts are afforded: each reads once, and all but the last write. -/
lemma Tries.countP {attempts : ℕ} {org : String} {ms : List Mutation} {calls : List StoreCall}
    (tries : Tries attempts org ms calls) :
    Task.Affords attempts (calls.countP StoreCall.isRead) (calls.countP StoreCall.isWrite)
      .changes := by
  obtain ⟨lost, last, few, all, final, rfl⟩ := tries
  obtain ⟨reads, writes⟩ := countP_lost all
  refine ⟨lost.length + 1, Nat.le_add_left .., few, ?_⟩
  rw [List.countP_append, List.countP_append, reads, writes]
  cases final with
  | failed => exact ⟨rfl, .inl rfl⟩
  | wrote => exact ⟨rfl, .inr rfl⟩

/-- What a task spends it affords. -/
lemma Task.Spends.affords {attempts : ℕ} {org : String} {ms : List Mutation}
    {calls : List StoreCall} {task : Task} (spends : task.Spends attempts org ms calls) :
    task.Affords attempts (calls.countP StoreCall.isRead) (calls.countP StoreCall.isWrite) := by
  cases task with
  | question =>
    obtain ⟨reply, rfl⟩ := spends
    exact ⟨rfl, rfl⟩
  | creation =>
    obtain rfl | ⟨document, reply, rfl⟩ := spends
    · exact ⟨rfl, Nat.zero_le 1⟩
    · exact ⟨rfl, Nat.le_refl 1⟩
  | idle =>
    obtain ⟨reply, rfl⟩ := spends
    exact ⟨rfl, rfl⟩
  | changes => exact Tries.countP spends

/-- A task affords two calls an attempt. -/
lemma Task.Affords.le {attempts reads writes : ℕ} {task : Task} (pos : 0 < attempts)
    (affords : task.Affords attempts reads writes) : reads + writes ≤ 2 * attempts := by
  cases task <;> simp only [Affords] at affords <;> omega

/-! ## Requests -/

/-- A request without a plan is refused, and any other is performed. -/
lemma run_handle (retryer : Retryer) (request : Request) :
    ExceptT.run (handle retryer request) = match request.plan with
      | .error e => .done (.error (.rejected e))
      | .ok plan => ExceptT.run (plan.perform retryer) := by
  simp only [handle, ExceptT.run_bind, Action.run_ofExcept, Program.done_bind]
  cases request.plan <;> rfl

/-- Among rivals and failures a request is refused for a field if and only if it lacks one, and then
nothing is called; any other request calls what its task may, and is answered by the time that it
could have made two accesses in each of its attempts. -/
theorem handle_budget {b : Backing} {es : List Event} (retryer : Retryer) (request : Request)
    (failing : Program.Failing es) :
    let p := ExceptT.run (handle retryer request)
    ((∃ name, request.Lacks name) ∨ 2 * retryer.attempts ≤ es.countP Event.moves →
        ∃ r, (p.among b es).1.result? = some r)
      ∧ ∀ r, (p.among b es).1.result? = some r →
        ((∃ name, r = .error (.rejected (.missingField name))) ↔ ∃ name, request.Lacks name)
        ∧ (∀ name, r = .error (.rejected (.missingField name)) →
          request.Lacks name ∧ p.calls b es = [])
        ∧ ((∀ name, ¬ request.Lacks name) → ∃ plan, request.plan = .ok plan
          ∧ request.task.Spends retryer.attempts plan.org plan.mutations (p.calls b es)
          ∧ request.task.Affords retryer.attempts ((p.calls b es).countP StoreCall.isRead)
            ((p.calls b es).countP StoreCall.isWrite)) := by
  intro p
  cases planned : request.plan with
  | error e =>
    -- a request that lacks something is refused before the store is called
    obtain ⟨name, rfl, lacks⟩ := request.demands_plan e planned
    have done : p = .done (.error (.rejected (.missingField name))) := by
      rw [show p = _ from run_handle retryer request, planned]
    rw [done, Program.among_done]
    refine ⟨fun _ => ⟨_, rfl⟩, ?_⟩
    rintro r ended
    cases ended
    refine ⟨⟨fun _ => ⟨name, lacks⟩, fun _ => ⟨name, rfl⟩⟩, ?_,
      fun none => absurd lacks (none name)⟩
    rintro name' eq
    cases eq
    exact ⟨lacks, Program.calls_done ..⟩
  | ok plan =>
    have lacks := Request.not_lacks_of_plan planned
    have performed : p = ExceptT.run (plan.perform retryer) := by
      rw [show p = _ from run_handle retryer request, planned]
    rw [performed]
    -- no run makes more than two calls an attempt, so that these moves end it
    refine ⟨?_, fun r ended => ?_⟩
    · rintro (⟨name, lack⟩ | moved)
      · exact absurd lack (lacks name)
      · refine Program.ends failing (fun calls r runs => ?_) moved
        rw [StoreCall.length_eq]
        exact (runs_perform runs).1.affords.le retryer.attempts_pos
    · obtain ⟨spends, complete⟩ := runs_perform (Program.runs_calls failing ended)
      rw [Request.task_of_plan planned] at spends
      refine ⟨⟨?_, ?_⟩, fun name eq => absurd eq (complete name), fun _ =>
        ⟨plan, rfl, spends, spends.affords⟩⟩
      · rintro ⟨name, rfl⟩
        exact absurd rfl (complete name)
      · rintro ⟨name, lack⟩
        exact absurd lack (lacks name)

/-- An update that loses its first attempt to a rival reads and writes twice, one whose second read
fails writes once, and one that lacks a name is refused without a call. -/
theorem handle_budget_overtaken :
    let start := Schema.encode ⟨⟨"acme", [], []⟩, .empty⟩
    let b := Backing.memory [("acme", ⟨start, 0⟩)]
    let update := fun name => ExceptT.run
      (handle ⟨3, 10, by decide⟩ (.createMetric (some "acme") (some name) []))
    let rival := Event.rival "acme" start (some 0)
    let won := (update "clicks").calls b [.own, rival, .own, .own, .own, .own, .own]
    let failed := (update "clicks").calls b [.own, rival, .own, .fault (.io "gone")]
    Task.changes.Spends 3 "acme" [.createMetric "clicks" []] won
      ∧ (won.countP StoreCall.isRead, won.countP StoreCall.isWrite) = (2, 2)
      ∧ Task.changes.Spends 3 "acme" [.createMetric "clicks" []] failed
      ∧ (failed.countP StoreCall.isRead, failed.countP StoreCall.isWrite) = (2, 1)
      ∧ (update "").calls b [.own] = [] := by
  intro start b update rival won failed
  have planned : (Request.createMetric (some "acme") (some "clicks") []).plan
      = .ok (.update "acme" [.createMetric "clicks" []] none) := rfl
  have named := Request.not_lacks_of_plan planned
  refine ⟨?_, by decide +kernel, ?_, by decide +kernel, ?_⟩
  · obtain ⟨ends, answers⟩ := @handle_budget b [.own, rival, .own, .own, .own, .own, .own]
      ⟨3, 10, by decide⟩ (.createMetric (some "acme") (some "clicks") [])
      (by simp [Program.Failing, rival])
    obtain ⟨r, ended⟩ := ends (.inr (by decide))
    obtain ⟨_, planned, spends, -⟩ := (answers r ended).2.2 named
    cases planned
    exact spends
  · obtain ⟨-, answers⟩ := @handle_budget b [.own, rival, .own, .fault (.io "gone")]
      ⟨3, 10, by decide⟩ (.createMetric (some "acme") (some "clicks") [])
      (by
        intro e mem
        obtain rfl : e = .io "gone" := by simpa [rival] using mem
        exact ⟨rfl, rfl⟩)
    have ended : ((update "clicks").among b
        [.own, rival, .own, .fault (.io "gone")]).1.result? = some (.error (.io "gone")) := by
      decide +kernel
    obtain ⟨_, planned, spends, -⟩ := (answers _ ended).2.2 named
    cases planned
    exact spends
  · have lacks : (Request.createMetric (some "acme") (some "") []).Lacks "metric_name" :=
      .text (by decide) (.inr rfl)
    obtain ⟨ends, answers⟩ := @handle_budget b [.own] ⟨3, 10, by decide⟩
      (.createMetric (some "acme") (some "") []) (by simp [Program.Failing])
    obtain ⟨r, ended⟩ := ends (.inl ⟨_, lacks⟩)
    obtain ⟨refused, silent, -⟩ := answers r ended
    obtain ⟨name, missing⟩ := refused.mpr ⟨_, lacks⟩
    exact (silent name missing).2

end MetricRegistry
