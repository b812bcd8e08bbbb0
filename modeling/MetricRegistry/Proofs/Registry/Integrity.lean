import MetricRegistry.Proofs.Catalog.RoundTrip
import MetricRegistry.Proofs.Catalog.WellFormed
import MetricRegistry.Proofs.Registry.Accesses
import MetricRegistry.Proofs.Store.View
import MetricRegistry.Request.Handler

/-!
# Stores that only the registry writes

The registry decodes what it stored, and does not check all that it relies on. That a store it
alone has written is never damaged follows from what each operation keeps: `Keeps` says that an
operation leaves every document that of a well-formed catalog, that one that fails leaves all as it
was, and that it does not fail for damage. An operation that only looks is `Quiet`. Both go through
sequences and attempts, so `keeps_perform` follows for whatever a request asks for, and
`documents_intact` for every sequence of operations on a store that was empty.
-/

namespace MetricRegistry

open Catalog

/-! ## Intact documents -/

/-- Whether an error blames what is stored. -/
def RegistryError.blamesStored : RegistryError → Bool
  | .corruption _ => true
  | .serialization _ => true
  | _ => false

namespace View

/-- Every document is that of a well-formed catalog of the organization that is its key. -/
def Intact (v : View) : Prop :=
  ∀ key stored, v key = some stored →
    ∃ s : Schema, stored.document = s.encode ∧ s.orgId = key ∧ s.WellFormed

/-- Every stored version has a next one that fits into a table's column. -/
def Bounded (v : View) : Prop :=
  ∀ key stored, v key = some stored → stored.version < UInt64.size / 2 - 1

variable {v v' : View} {org : String}

/-- Where nothing is stored all is intact. -/
lemma intact_empty : Intact fun _ => none := by
  intro key stored shown
  simp at shown

/-- A view stays intact where the catalog of an organization is replaced by a well-formed one. -/
lemma Intact.update (intact : v.Intact) {s : Schema} (own : s.orgId = org)
    (wellFormed : s.WellFormed) (version : Version) :
    Intact (Function.update v org (some ⟨s.encode, version⟩)) := by
  intro key stored shown
  by_cases eq : key = org
  · obtain rfl := eq
    rw [Function.update_self] at shown
    obtain rfl := Option.some.inj shown
    exact ⟨s, rfl, own, wellFormed⟩
  · rw [Function.update_of_ne eq] at shown
    exact intact key stored shown

/-- An intact document shows a well-formed catalog of its organization. -/
lemma Intact.schemaOf (intact : v.Intact) {stored : Stored} (shown : v org = some stored) :
    ∃ s : Schema, schemaOf org stored = .ok s ∧ s.orgId = org ∧ s.WellFormed := by
  obtain ⟨s, document, rfl, wellFormed⟩ := intact org stored shown
  obtain ⟨bytes, version⟩ := stored
  obtain rfl : bytes = s.encode := document
  exact ⟨s, schemaOf_encode wellFormed.unambiguous version, rfl, wellFormed⟩

/-- What an intact view tells a clerk: a well-formed catalog, or that there is none. -/
lemma Intact.ofReply (intact : v.Intact) (org : String) :
    Clerk.ofReply org (.ok (v org)) = .error (.rejected (.notFound .org org))
      ∨ ∃ stored s, v org = some stored
        ∧ Clerk.ofReply org (.ok (v org)) = .ok ⟨stored.version, s⟩ ∧ s.orgId = org
        ∧ s.WellFormed := by
  cases shown : v org with
  | none => exact .inl rfl
  | some stored =>
    obtain ⟨s, decoded, own, wellFormed⟩ := intact.schemaOf shown
    exact .inr ⟨stored, s, rfl, by simp [Clerk.ofReply, decoded, Except.map], own, wellFormed⟩

end View

/-! ## Transactions that keep them -/

variable {α β : Type}

/-- A computation leaves a store sound and intact, and where it fails it leaves what the store shows
as it was and does not blame what is stored unless a version is too large. -/
def KeepsAt (x : StateM Backing (Except RegistryError α)) (b : Backing) : Prop :=
  ∃ r b', x.run b = (r, b') ∧ b'.Sound ∧ b'.view.Intact
    ∧ ∀ e, r = .error e → b'.view = b.view ∧ (b.view.Bounded → e.blamesStored = false)

/-- A computation keeps documents intact, in whatever store they are. -/
def Keeps (x : StateM Backing (Except RegistryError α)) : Prop :=
  ∀ b : Backing, b.Sound → b.view.Intact → KeepsAt x b

/-- An action that leaves a store as it is and does not fail for what is stored. -/
def Quiet (a : Action α) : Prop :=
  ∀ b : Backing, b.Sound → b.view.Intact → ∃ r, (a.runOn Backing.store).run b = (r, b)
    ∧ ∀ e, r = .error e → e.blamesStored = false

variable {b : Backing}

/-- A computation that does nothing keeps a store if it blames nothing. -/
lemma keepsAt_done {r : Except RegistryError α} (sound : b.Sound) (intact : b.view.Intact)
    (sane : ∀ e, r = .error e → e.blamesStored = false) :
    KeepsAt (Program.run Backing.store (.done r)) b :=
  ⟨r, b, rfl, sound, intact, fun e failed => ⟨rfl, fun _ => sane e failed⟩⟩

/-- What a computation comes to from a store that shows the same may be looked at instead. -/
lemma KeepsAt.of_run {x y : StateM Backing (Except RegistryError α)} {b' : Backing}
    (run : x.run b = y.run b') (same : b'.view = b.view) (keeps : KeepsAt y b') : KeepsAt x b := by
  obtain ⟨r, b'', run', rest⟩ := keeps
  rw [same] at rest
  exact ⟨r, b'', run.trans run', rest⟩

/-- A quiet action keeps documents intact. -/
lemma Quiet.keeps {a : Action α} (quiet : Quiet a) : Keeps (a.runOn Backing.store) := by
  intro b sound intact
  obtain ⟨r, run, sane⟩ := quiet b sound intact
  exact ⟨r, b, run, sound, intact, fun e failed => ⟨rfl, fun _ => sane e failed⟩⟩

/-- A result is quiet if it does not blame what is stored. -/
lemma quiet_ofExcept {r : Except RegistryError α}
    (sane : ∀ e, r = .error e → e.blamesStored = false) : Quiet (Action.ofExcept r) :=
  fun _ _ _ => ⟨r, rfl, sane⟩

/-- A rejection is quiet. -/
lemma quiet_rejection {r : Except Rejection α} :
    Quiet (Action.ofExcept (r.mapError .rejected)) := by
  refine quiet_ofExcept fun e failed => ?_
  obtain ⟨rejection, -, rfl⟩ := Except.mapError_eq_error.mp failed
  rfl

/-- A result without an error is quiet. -/
lemma quiet_pure (a : α) : Quiet (pure a : Action α) :=
  fun _ _ _ => ⟨.ok a, rfl, fun _ failed => by cases failed⟩

/-- Two quiet actions one after the other are quiet. -/
lemma Quiet.bind {a : Action α} {f : α → Action β} (first : Quiet a) (second : ∀ x, Quiet (f x)) :
    Quiet (a >>= f) := by
  intro b sound intact
  obtain ⟨r, run, sane⟩ := first b sound intact
  rw [Action.runOn_bind, StateM.run_bind_of_run run]
  cases r with
  | ok x => exact second x b sound intact
  | error e => exact ⟨.error e, rfl, fun _ failed => by cases failed; exact sane e rfl⟩

/-- A clerk is opened quietly. -/
lemma quiet_opened (org : String) : Quiet (Clerk.opened org) := by
  intro b sound intact
  refine ⟨Clerk.ofReply org (.ok (b.view org)), ?_, fun e failed => ?_⟩
  · rw [Action.runOn, run_opened, Program.run, StateM.run_bind_of_run (Backing.run_read sound org)]
    rfl
  · rcases intact.ofReply org with notFound | ⟨_, _, _, found, _⟩
    · rw [notFound] at failed
      cases failed
      rfl
    · rw [found] at failed
      cases failed

/-- What is made of a result keeps what its action keeps. -/
lemma Keeps.map {a : Action α} (keeps : Keeps (a.runOn Backing.store)) (f : α → β) :
    Keeps ((a >>= fun x => pure (f x)).runOn Backing.store) := by
  intro b sound intact
  obtain ⟨r, b', run, sound', intact', failed'⟩ := keeps b sound intact
  rw [KeepsAt, Action.runOn_bind, StateM.run_bind_of_run run]
  cases r with
  | ok x => exact ⟨.ok (f x), b', rfl, sound', intact', fun _ failed => by cases failed⟩
  | error e =>
    exact ⟨.error e, b', rfl, sound', intact', fun _ failed => by cases failed; exact failed' e rfl⟩

/-- Writing a well-formed catalog under its organization keeps documents intact. -/
lemma keepsAt_writing {org : String} {s : Schema} (own : s.orgId = org) (wellFormed : s.WellFormed)
    {expected : Option Version} {lost : RegistryError} (sane : lost.blamesStored = false)
    (sound : b.Sound) (intact : b.view.Intact)
    (fits : b.view.Bounded → nextVersion expected < UInt64.size / 2) :
    KeepsAt (Program.run Backing.store (Committed.writing org s expected lost)) b := by
  obtain ⟨reply, b', run, sound', written⟩ := Backing.run_write sound org s.encode expected
  refine ⟨Committed.ofReply org s lost reply, b', ?_, sound', ?_⟩
  · rw [Committed.writing, Program.run, StateM.run_bind_of_run run]
    rfl
  generalize b'.view = v' at written
  cases written with
  | committed _ => exact ⟨intact.update own wellFormed _, fun e failed => by cases failed⟩
  | conflict _ =>
    refine ⟨intact, fun e failed => ?_⟩
    cases failed
    exact ⟨rfl, fun _ => sane⟩
  | failed large =>
    refine ⟨intact, fun e failed => ?_⟩
    cases failed
    exact ⟨rfl, fun bounded => absurd (fits bounded) (Nat.not_lt.mpr large)⟩

/-- A creation keeps documents intact. -/
lemma keeps_commitNew (org : String) : Keeps ((commitNew org).runOn Backing.store) := by
  intro b sound intact
  rw [Action.runOn, run_commitNew]
  cases started : Schema.ofOrg org with
  | error violation => exact keepsAt_done sound intact fun e failed => by cases failed; rfl
  | ok s =>
    obtain ⟨wellFormed, own⟩ := Schema.ofOrg_wellFormed started
    exact keepsAt_writing own wellFormed rfl sound intact fun _ => by decide

/-- Changes keep documents intact. -/
lemma keeps_commitChanges (org : String) (ms : List Mutation) :
    Keeps ((commitChanges org ms).runOn Backing.store) := by
  intro b sound intact
  rw [Action.runOn, run_commitChanges, Program.run]
  refine .of_run (StateM.run_bind_of_run (Backing.run_read sound org)) rfl ?_
  rcases intact.ofReply org with notFound | ⟨stored, s, shown, found, own, wellFormed⟩
  · rw [notFound]
    exact keepsAt_done sound intact fun e failed => by cases failed; rfl
  rw [found]
  simp only [Committed.afterRead]
  split
  · exact keepsAt_done sound intact fun e failed => by cases failed
  cases applied : s.applyAll ms with
  | error rejection => exact keepsAt_done sound intact fun e failed => by cases failed; rfl
  | ok s' =>
    refine keepsAt_writing ((Schema.applyAll_orgId applied).trans own)
      (Schema.applyAll_wellFormed wellFormed applied) rfl sound intact fun bounded => ?_
    exact Nat.add_lt_of_lt_sub (bounded org stored shown)

section Attempts

variable {attempt : StateM Backing (Except RegistryError α)} {b' : Backing}

/-- An attempt that succeeds ends the loop. -/
lemma Retryer.run_loop_ok {a : α} (run : attempt.run b = (.ok a, b')) (n : ℕ)
    (last : RegistryError) : (loop attempt (n + 1) last).run b = (.ok a, b') := by
  rw [loop, StateM.run_bind_of_run run]
  rfl

/-- An attempt that fails ends the loop unless it lost a race. -/
lemma Retryer.run_loop_error {e : RegistryError} (run : attempt.run b = (.error e, b')) (n : ℕ)
    (last : RegistryError) :
    (loop attempt (n + 1) last).run b
      = if e.isConflict then (loop attempt n e).run b' else (.error e, b') := by
  rw [loop, StateM.run_bind_of_run run]
  by_cases conflict : e.isConflict
  · simp only [conflict, if_true]
  · simp only [conflict]
    rfl

/-- Attempts keep documents intact where each does. -/
lemma Keeps.loop (keeps : Keeps attempt) (n : ℕ) {last : RegistryError}
    (sane : last.blamesStored = false) : Keeps (Retryer.loop attempt n last) := by
  intro b sound intact
  -- an attempt that ends in a conflict has changed nothing, so the next starts from the same view
  induction n generalizing b last with
  | zero =>
    refine ⟨.error last, b, rfl, sound, intact, fun e failed => ⟨rfl, fun _ => ?_⟩⟩
    cases failed
    exact sane
  | succ n ih =>
    obtain ⟨r, b', run, sound', intact', failed'⟩ := keeps b sound intact
    cases r with
    | ok x =>
      exact ⟨.ok x, b', Retryer.run_loop_ok run n last, sound', intact', fun _ failed => by
        cases failed⟩
    | error e =>
      obtain ⟨same, saneHere⟩ := failed' e rfl
      have next := Retryer.run_loop_error run n last
      by_cases conflict : e.isConflict
      · have saneConflict : e.blamesStored = false := by
          cases e <;> simp_all [RegistryError.isConflict, RegistryError.blamesStored]
        rw [if_pos conflict] at next
        exact .of_run next same (ih saneConflict b' sound' intact')
      · rw [if_neg conflict] at next
        refine ⟨.error e, b', next, sound', intact', fun e' failed => ?_⟩
        cases failed
        exact ⟨same, saneHere⟩

end Attempts

/-- A plan keeps documents intact. -/
lemma keeps_perform (retryer : Retryer) (plan : Plan) :
    Keeps ((plan.perform retryer).runOn Backing.store) := by
  cases plan with
  | createOrg org => exact (keeps_commitNew org).map Committed.response
  | update org ms target =>
    simp only [Plan.perform]
    split
    · exact ((quiet_opened org).bind fun c => quiet_rejection.bind fun _ => quiet_pure _).keeps
    · refine Keeps.map ?_ Committed.response
      have attempts : Action.runOn Backing.store
            (ExceptT.mk (retryer.run (ExceptT.run (commitChanges org ms))))
          = Retryer.loop ((commitChanges org ms).runOn Backing.store) retryer.attempts
            (.configuration "retry loop made no attempts") :=
        Retryer.run_loop Backing.store _ _ _
      rw [attempts]
      exact (keeps_commitChanges org ms).loop _ rfl
  | getMetrics org => exact ((quiet_opened org).bind fun c => quiet_pure _).keeps
  | getMetric org metric =>
    exact ((quiet_opened org).bind fun c => quiet_rejection.bind fun _ => quiet_pure _).keeps
  | getTenant org => exact ((quiet_opened org).bind fun c => quiet_pure _).keeps

/-- A request keeps documents intact. -/
lemma keeps_handle (retryer : Retryer) (request : Request) :
    Keeps ((handle retryer request).runOn Backing.store) := by
  intro b sound intact
  rw [handle, Action.runOn_bind]
  cases planned : request.plan with
  | error rejection => exact keepsAt_done sound intact fun e failed => by cases failed; rfl
  | ok plan => exact keeps_perform retryer plan b sound intact

/-! ## Sequences of operations -/

/-- What a user of the registry does. -/
inductive Transaction where
  | create (org : String)
  | change (org : String) (mutations : List Mutation)
  | request (retryer : Retryer) (request : Request)

namespace Transaction

/-- What an operation gives. -/
def Reply : Transaction → Type
  | .create _ => Committed
  | .change _ _ => Committed
  | .request _ _ => Response

/-- The action of an operation. -/
def action : (o : Transaction) → Action o.Reply
  | .create org => commitNew org
  | .change org mutations => commitChanges org mutations
  | .request retryer asked => handle retryer asked

/-- What comes of an operation on a store. -/
def run (o : Transaction) (b : Backing) : Except RegistryError o.Reply × Backing :=
  (o.action.runOn Backing.store).run b

/-- The store after several operations. -/
def after (os : List Transaction) (b : Backing) : Backing :=
  os.foldl (fun b o => (o.run b).2) b

/-- Every operation keeps documents intact. -/
lemma keeps (o : Transaction) : Keeps (o.action.runOn Backing.store) := by
  cases o with
  | create org => exact keeps_commitNew org
  | change org ms => exact keeps_commitChanges org ms
  | request retryer asked => exact keeps_handle retryer asked

/-- After any transactions documents are intact. -/
lemma after_intact (os : List Transaction) {b : Backing} (sound : b.Sound)
    (intact : b.view.Intact) :
    (after os b).Sound ∧ (after os b).view.Intact := by
  induction os generalizing b with
  | nil => exact ⟨sound, intact⟩
  | cons o os ih =>
    obtain ⟨r, b', run, sound', intact', -⟩ := o.keeps b sound intact
    have step : (o.run b).2 = b' := congrArg Prod.snd run
    rw [after, List.foldl_cons, step]
    exact ih sound' intact'

/-- In a store that was empty and that only the registry has written, every document is decoded to
a well-formed catalog of the organization that is its key, and no operation blames what is stored
before versions reach their limit. -/
theorem documents_intact {b : Backing} (empty : b.IsEmpty) (os : List Transaction) :
    (∀ key stored, (after os b).view key = some stored →
        ∃ s, Schema.decode stored.document = .ok s ∧ s.orgId = key ∧ s.WellFormed)
      ∧ ((∀ key stored, (after os b).view key = some stored →
          stored.version < UInt64.size / 2 - 1) →
        ∀ (o : Transaction) (e : RegistryError), (o.run (after os b)).1 = .error e →
          (∀ damage, e ≠ .corruption damage) ∧ ∀ fault, e ≠ .serialization fault) := by
  obtain ⟨soundEmpty, viewEmpty⟩ := empty.sound
  obtain ⟨sound, intact⟩ := after_intact os soundEmpty (viewEmpty ▸ View.intact_empty)
  refine ⟨fun key stored shown => ?_, fun bounded o e failed => ?_⟩
  · obtain ⟨s, document, own, wellFormed⟩ := intact key stored shown
    refine ⟨s, ?_, own, wellFormed⟩
    rw [document]
    exact Schema.decode_encode (Schema.check_eq_ok.mpr wellFormed.unambiguous)
  · obtain ⟨r, b', run, -, -, blame⟩ := o.keeps _ sound intact
    have result : r = .error e := (congrArg Prod.fst run).symm.trans failed
    have sane := (blame e result).2 bounded
    constructor <;> rintro _ rfl <;> simp [RegistryError.blamesStored] at sane

/-- After an organization was created and got a metric its document is intact, and creating it again
is refused without blame. -/
theorem documents_intact_acme :
    ∃ b stored s e,
      after [.create "acme", .change "acme" [.createMetric "clicks" ["hits"]]] (.memory []) = b
        ∧ b.view "acme" = some stored ∧ Schema.decode stored.document = .ok s ∧ s.WellFormed
        ∧ ((create "acme").run b).1 = .error e ∧ ∀ damage, e ≠ .corruption damage := by
  have intact := documents_intact (b := .memory []) rfl
    [.create "acme", .change "acme" [.createMetric "clicks" ["hits"]]]
  obtain ⟨document, state⟩ : ∃ document,
      after [.create "acme", .change "acme" [.createMetric "clicks" ["hits"]]] (.memory [])
        = .memory [("acme", ⟨document, 1⟩)] :=
    ⟨Schema.encode ⟨⟨"acme", [], []⟩, ⟨2, [⟨1, ⟨"clicks", ["hits"]⟩, .empty⟩]⟩⟩, by decide +kernel⟩
  rw [state] at intact
  obtain ⟨s, decoded, -, wellFormed⟩ := intact.1 "acme" _ rfl
  refine ⟨_, _, s, .rejected (.alreadyExists .org "acme"), state, rfl, decoded, wellFormed, rfl, ?_⟩
  refine (intact.2 (fun key stored shown => ?_) (.create "acme") _ rfl).1
  have only : key = "acme" := by
    by_contra other
    have skip : (key == "acme") = false := by simpa using other
    simp [Backing.view, Documents.get?, List.lookup_cons, skip] at shown
  obtain rfl := only
  obtain rfl := Option.some.inj shown
  exact (show 1 < UInt64.size / 2 - 1 by decide)

end Transaction

end MetricRegistry
