import MetricRegistry.Proofs.Registry.Integrity
import MetricRegistry.Proofs.Registry.Interference

/-!
# All or nothing

An operation that fails leaves no trace, whatever was stored and whoever wrote meanwhile, and one
that reports a change has written one document once. A program is `Honest` where each of its writes
creates a document or follows the read of the version that it expects, a write that takes place ends
it, and it reports that write and no other; every operation of the registry is. `Honest.among` says
what the run of such a program leaves among rivals and failures, by induction on what happens.
-/

namespace MetricRegistry

open Catalog

/-! ## Programs that report what they write -/

/-- The organization and the version that a commit reports to have stored. -/
def Committed.stored? (c : Committed) : Option (String × Version) :=
  if c.changed then some (c.org, c.version) else none

/-- The organization and the version that a response reports to have been stored. -/
def Response.stored? : Response → Option (String × Version)
  | .committed org version true => some (org, version)
  | _ => none

/-- A program reports what it writes. `last` is what it has just read, a key and the version there;
`stored?` is what a result reports. -/
inductive Honest {α : Type} (stored? : α → Option (String × Version)) :
    Option (String × Version) → Program (Except RegistryError α) → Prop where
  | done {last r} :
    (∀ a, r = .ok a → stored? a = none) →
    Honest stored? last (.done r)
  | read {last key resume} :
    (∀ e, Honest stored? none (resume (.error e))) →
    Honest stored? none (resume (.ok none)) →
    (∀ stored, Honest stored? (some (key, stored.version)) (resume (.ok (some stored)))) →
    Honest stored? last (.read key resume)
  | write {last key document expected resume} :
    (∀ current, expected = some current → last = some (key, current)) →
    (∀ version, ∃ a, resume (.ok (.committed version)) = .done (.ok a)
      ∧ stored? a = some (key, version)) →
    (∀ actual, Honest stored? none (resume (.ok (.conflict actual)))) →
    (∀ e, Honest stored? none (resume (.error e))) →
    Honest stored? last (.write key document expected resume)

section Honest

variable {α β : Type} {reported : α → Option (String × Version)}
  {reported' : β → Option (String × Version)} {last : Option (String × Version)}

/-- What needs no read before it may come after any. -/
lemma Honest.weaken {p : Program (Except RegistryError α)} (honest : Honest reported none p) :
    Honest reported last p := by
  cases honest with
  | done silent => exact .done silent
  | read failed missing found => exact .read failed missing found
  | write follows committed conflict failed =>
    refine .write (fun current expects => ?_) committed conflict failed
    cases follows current expects

/-- What comes after a program may go on after an error or after a result that reports nothing, and
has to report what the program does. -/
lemma Honest.bind {p : Program (Except RegistryError α)}
    {f : Except RegistryError α → Program (Except RegistryError β)}
    (first : Honest reported last p) (failed : ∀ e, Honest reported' none (f (.error e)))
    (silent : ∀ a, reported a = none → Honest reported' none (f (.ok a)))
    (loud : ∀ a place, reported a = some place →
      ∃ a', f (.ok a) = .done (.ok a') ∧ reported' a' = some place) :
    Honest reported' last (p >>= f) := by
  induction first with
  | @done last r nothing =>
    rw [Program.done_bind]
    cases r with
    | ok a => exact (silent a (nothing a rfl)).weaken
    | error e => exact (failed e).weaken
  | read _ _ _ ihFailed ihMissing ihFound => exact .read ihFailed ihMissing ihFound
  | write follows committed _ _ ihConflict ihFailed =>
    refine .write follows (fun version => ?_) ihConflict ihFailed
    obtain ⟨a, ends, report⟩ := committed version
    obtain ⟨a', ends', report'⟩ := loud a _ report
    refine ⟨a', ?_, report'⟩
    rw [ends]
    exact ends'

/-- A result may be put in another form that reports the same. -/
lemma Honest.map {a : Action α} {f : α → β} (honest : Honest reported last (ExceptT.run a))
    (same : ∀ x, reported' (f x) = reported x) :
    Honest reported' last (ExceptT.run (a >>= fun x => pure (f x))) := by
  rw [ExceptT.run_bind]
  refine honest.bind (fun e => ?_) (fun x nothing => ?_) fun x place report => ?_
  · exact .done fun _ failed => by cases failed
  · exact .done fun y eq => by cases eq; exact (same x).trans nothing
  · exact ⟨f x, rfl, (same x).trans report⟩

/-- What only reads and reports nothing may go on with anything. -/
lemma Honest.andThen {a : Action α} {f : α → Action β}
    (first : Honest (fun _ => none) last (ExceptT.run a))
    (rest : ∀ x, Honest reported' none (ExceptT.run (f x))) :
    Honest reported' last (ExceptT.run (a >>= f)) := by
  rw [ExceptT.run_bind]
  refine first.bind (fun e => ?_) (fun x _ => rest x) fun x place report => ?_
  · exact .done fun _ failed => by cases failed
  · cases report

/-- A result is honest: it reports nothing and has written nothing. -/
lemma honest_ofExcept (r : Except RegistryError α) :
    Honest (fun _ => none) last (ExceptT.run (Action.ofExcept r)) :=
  .done fun _ _ => rfl

/-- A result that reports nothing is honest. -/
lemma honest_pure {a : α} (silent : reported a = none) :
    Honest reported last (ExceptT.run (pure a : Action α)) :=
  .done fun x eq => by cases eq; exact silent

/-- Opening a clerk is honest. -/
lemma honest_opened (org : String) :
    Honest (fun _ => none) last (ExceptT.run (Clerk.opened org)) := by
  rw [run_opened]
  exact .read (fun _ => .done fun _ _ => rfl) (.done fun _ _ => rfl)
    fun _ => .done fun _ _ => rfl

/-- A commit that is about to write reports what it writes. -/
lemma honest_writing {org : String} {s : Schema} {expected : Option Version} {lost : RegistryError}
    (follows : ∀ current, expected = some current → last = some (org, current)) :
    Honest Committed.stored? last (Committed.writing org s expected lost) := by
  refine .write follows (fun version => ⟨_, rfl, rfl⟩) (fun actual => ?_) fun e => ?_
  · exact .done fun _ failed => by cases failed
  · exact .done fun _ failed => by cases failed

/-- A creation is honest. -/
lemma honest_commitNew (org : String) :
    Honest Committed.stored? last (ExceptT.run (commitNew org)) := by
  rw [run_commitNew]
  cases Schema.ofOrg org with
  | error violation => exact .done fun _ failed => by cases failed
  | ok s => exact honest_writing fun _ eq => by cases eq

/-- Changes are honest. -/
lemma honest_commitChanges (org : String) (ms : List Mutation) :
    Honest Committed.stored? last (ExceptT.run (commitChanges org ms)) := by
  rw [run_commitChanges]
  refine .read (fun e => ?_) ?_ fun stored => ?_
  · exact .done fun _ failed => by cases failed
  · exact .done fun _ failed => by cases failed
  simp only [Clerk.ofReply]
  cases schemaOf org stored with
  | error e => exact .done fun _ failed => by cases failed
  | ok s =>
    simp only [Except.map, Committed.afterRead]
    split
    · exact .done fun _ eq => by cases eq; rfl
    cases s.applyAll ms with
    | error rejection => exact .done fun _ failed => by cases failed
    | ok s' => exact honest_writing fun _ eq => by cases eq; rfl

/-- Attempts are honest where each is: one that has written is the last. -/
lemma Honest.loop {attempt : Program (Except RegistryError α)}
    (honest : Honest reported none attempt) (n : ℕ) (e : RegistryError) :
    Honest reported none (Retryer.loop attempt n e) := by
  induction n generalizing e with
  | zero => exact .done fun _ failed => by cases failed
  | succ n ih =>
    refine honest.bind (fun e => ?_) (fun a nothing => ?_) fun a place report => ?_
    · dsimp only
      split
      · exact ih e
      · exact .done fun _ failed => by cases failed
    · exact .done fun _ eq => by cases eq; exact nothing
    · exact ⟨a, rfl, report⟩

/-- A response tells of the commit that it comes from. -/
lemma Committed.stored?_response (c : Committed) : c.response.stored? = c.stored? := by
  obtain ⟨org, version, schema, changed⟩ := c
  cases changed <;> rfl

/-- A plan is honest. -/
lemma honest_perform (retryer : Retryer) (plan : Plan) :
    Honest Response.stored? none (ExceptT.run (plan.perform retryer)) := by
  cases plan with
  | createOrg org => exact (honest_commitNew org).map Committed.stored?_response
  | update org ms target =>
    simp only [Plan.perform]
    split
    · exact (honest_opened org).andThen fun c => (honest_ofExcept _).andThen fun _ =>
        honest_pure rfl
    · exact Honest.map ((honest_commitChanges org ms).loop _ _) Committed.stored?_response
  | getMetrics org => exact (honest_opened org).andThen fun c => honest_pure rfl
  | getMetric org metric =>
    exact (honest_opened org).andThen fun c => (honest_ofExcept _).andThen fun _ =>
      honest_pure rfl
  | getTenant org => exact (honest_opened org).andThen fun c => honest_pure rfl

/-- A request is honest. -/
lemma honest_handle (retryer : Retryer) (request : Request) :
    Honest Response.stored? none (ExceptT.run (handle retryer request)) :=
  (honest_ofExcept _).andThen fun plan => honest_perform retryer plan

end Honest

/-! ## What a run leaves -/

/-- A store where a program has written one document of an organization, once, while others did what
they did: it created the document, or it wrote over the version that its last read had found. -/
inductive WroteOnce (b : Backing) (org : String) : Version → List Event → Cells → Prop where
  | created {before after document b'} :
    (Backing.store.write org document none).run (b.others before) = (.ok (.committed 0), b') →
    WroteOnce b org 0 (before ++ .own :: after) (b'.others after).cells
  | changed {before inside after document stored b'} :
    (∀ e ∈ inside, e.IsRival) →
    (Backing.store.read org).run (b.others before) = (.ok (some stored), b.others before) →
    (Backing.store.write org document (some stored.version)).run (b.others (before ++ inside))
      = (.ok (.committed (stored.version + 1)), b') →
    WroteOnce b org (stored.version + 1) (before ++ .own :: (inside ++ .own :: after))
      (b'.others after).cells

/-- The same of a program that has read already, and nothing since. -/
inductive WroteNext (b : Backing) (org : String) (current : Version) :
    List Event → Cells → Prop where
  | intro {inside after document b'} :
    (∀ e ∈ inside, e.IsRival) →
    (Backing.store.write org document (some current)).run (b.others inside)
      = (.ok (.committed (current + 1)), b') →
    WroteNext b org current (inside ++ .own :: after) (b'.others after).cells

/-- What a run leaves that reports to have written or not to have, after a read of `last`. -/
def Leaves (b : Backing) (last : Option (String × Version)) (es : List Event) (cs : Cells) :
    Option (String × Version) → Prop
  | none => cs = (b.others es).cells
  | some (org, version) => WroteOnce b org version es cs
    ∨ ∃ current, last = some (org, current) ∧ version = current + 1 ∧ WroteNext b org current es cs

section Runs

variable {b c : Backing} {last report : Option (String × Version)} {es : List Event} {cs : Cells}

/-- What was written once after an event was written once. -/
lemma WroteOnce.cons {e : Event} {org : String} {version : Version}
    (once : WroteOnce (b.other e) org version es cs) : WroteOnce b org version (e :: es) cs := by
  cases once with
  | @created before after document b' written =>
    exact @WroteOnce.created b org (e :: before) after document b' written
  | @changed before inside after document stored b' rivals found written =>
    exact @WroteOnce.changed b org (e :: before) inside after document stored b' rivals found
      written

/-- What is written next after a rival is written next. -/
lemma WroteNext.cons {e : Event} {org : String} {current : Version} (rival : e.IsRival)
    (next : WroteNext (b.other e) org current es cs) : WroteNext b org current (e :: es) cs := by
  cases next with
  | @intro inside after document b' rivals written =>
    exact @WroteNext.intro b org current (e :: inside) after document b'
      (List.forall_mem_cons.mpr ⟨rival, rivals⟩) written

/-- What is written next after a version was found is written once, a version higher. -/
lemma WroteNext.once {org : String} {stored : Stored}
    (found : (Backing.store.read org).run b = (.ok (some stored), b))
    (next : WroteNext b org stored.version es cs) :
    WroteOnce b org (stored.version + 1) (.own :: es) cs := by
  cases next with
  | @intro inside after document b' rivals written =>
    exact @WroteOnce.changed b org [] inside after document stored b' rivals found written

/-- What is left after a rival is left. -/
lemma Leaves.rival {e : Event} (rival : e.IsRival) (leaves : Leaves (b.other e) last es cs report) :
    Leaves b last (e :: es) cs report := by
  cases report with
  | none => exact leaves
  | some place =>
    rcases leaves with once | ⟨current, read, version, next⟩
    · exact .inl once.cons
    · exact .inr ⟨current, read, version, next.cons rival⟩

/-- What the program does itself leaves nothing to go on from, unless it reads a version. -/
lemma Leaves.idle {e : Event} (idle : b.other e = b) (leaves : Leaves b none es cs report) :
    Leaves b last (e :: es) cs report := by
  rw [← idle] at leaves
  cases report with
  | none => exact leaves
  | some place =>
    rcases leaves with once | ⟨current, read, version, next⟩
    · exact .inl once.cons
    · cases read

/-- What is left after a version was found is left. -/
lemma Leaves.found {key : String} {stored : Stored}
    (found : (Backing.store.read key).run b = (.ok (some stored), b))
    (leaves : Leaves b (some (key, stored.version)) es cs report) :
    Leaves b last (.own :: es) cs report := by
  cases report with
  | none => exact leaves
  | some place =>
    obtain ⟨org, version⟩ := place
    rcases leaves with once | ⟨current, read, rfl, next⟩
    · exact .inl (WroteOnce.cons (e := .own) once)
    · cases read
      exact .inl (next.once found)

variable {α : Type} {reported : α → Option (String × Version)}
  {p : Program (Except RegistryError α)} {r : Except RegistryError α}

/-- A program that has ended leaves what the events after it leave. -/
lemma Honest.among_done (honest : Honest reported last (.done r)) (alike : b.Alike c) :
    Leaves c last es (b.others es).cells (r.toOption.bind reported) := by
  have silent : r.toOption.bind reported = none := by
    cases honest with
    | done silent =>
      cases r with
      | error e => rfl
      | ok a => exact silent a rfl
  rw [silent]
  exact (alike.others es).cells

/-- What the run of an honest program leaves, in a store that holds what another does. -/
lemma Honest.among (honest : Honest reported last p) (alike : b.Alike c)
    (ended : (p.among b es).1.result? = some r) :
    Leaves c last es (p.among b es).2.cells (r.toOption.bind reported) := by
  -- on what happens: `b` is where the program is, and `c` where the others are without it
  induction es generalizing p b c last with
  | nil =>
    cases p with
    | done r' =>
      obtain rfl := Option.some.inj ended
      exact honest.among_done alike
    | read => cases ended
    | write => cases ended
  | cons e es ih =>
    cases e with
    | rival key document expected =>
      exact .rival trivial (ih honest (alike.other (.rival key document expected)) ended)
    | fault e =>
      refine .idle rfl ?_
      cases honest with
      | @done _ r' silent => exact ih (.done silent) alike ended
      | read failed _ _ => exact ih (failed e) alike ended
      | write _ _ _ failed => exact ih (failed e) alike ended
    | own =>
      cases honest with
      | done silent => exact .idle rfl (ih (.done silent) alike ended)
      | @read _ key resume failed missing found =>
        have step : (Program.read key resume).among b (.own :: es)
            = (resume (b.cells.read key)).among b es := by
          rw [Program.among_cons, Program.after, Program.access_read]
        rw [step] at ended ⊢
        have seen := Backing.run_read_cells c key
        rw [← alike.cells] at seen
        -- what is read decides what the program may write over
        generalize b.cells.read key = reply at seen ended ⊢
        obtain e | _ | stored := reply
        · exact .idle rfl (ih (failed e) alike ended)
        · exact .idle rfl (ih missing alike ended)
        · exact .found seen (ih (found stored) alike ended)
      | @write _ key document expected resume follows committed conflict failed =>
        obtain ⟨reply, b', c', run, run', alike', lost, next⟩ :=
          alike.run_write key document expected
        have step : (Program.write key document expected resume).among b (.own :: es)
            = (resume reply).among b' es := by
          rw [Program.among_cons, Program.after, Program.access, run]
        rw [step] at ended ⊢
        obtain e | version | actual := reply
        · exact .idle rfl (ih (failed e) (lost fun _ eq => by cases eq) ended)
        -- a write that takes place ends the program, and here the two stores part
        · obtain ⟨a, ends, report⟩ := committed version
          rw [ends, Program.among_done] at ended ⊢
          obtain rfl := Option.some.inj ended
          obtain rfl := next version rfl
          simp only [Except.toOption, Option.bind_some, report, (alike'.others es).cells]
          cases expected with
          | none => exact .inl (@WroteOnce.created c key [] es document c' run')
          | some current =>
            exact .inr ⟨current, follows current rfl, rfl,
              @WroteNext.intro c key current [] es document c' (by simp) run'⟩
        · exact .idle rfl (ih (conflict actual) (lost fun _ eq => by cases eq) ended)

end Runs

/-! ## Operations -/

namespace Transaction

/-- The accesses of an operation. -/
def program (o : Transaction) : Program (Except RegistryError o.Reply) :=
  ExceptT.run o.action

/-- What the reply to an operation reports to have been stored. -/
def stored? : (o : Transaction) → o.Reply → Option (String × Version)
  | .create _ => Committed.stored?
  | .change _ _ => Committed.stored?
  | .request _ _ => Response.stored?

/-- A transaction is honest. -/
lemma honest (o : Transaction) : Honest o.stored? none o.program := by
  cases o with
  | create org => exact honest_commitNew org
  | change org ms => exact honest_commitChanges org ms
  | request retryer asked => exact honest_handle retryer asked

/-- An operation that fails, or reports that nothing was changed, leaves what the others have made
of the store. One that reports a change has written one document, once, under the version after the
one that it had read, or the first version of a new one. -/
theorem all_or_nothing {b : Backing} (keyed : b.Keyed) (o : Transaction) (es : List Event)
    {r : Except RegistryError o.Reply} (ended : (o.program.among b es).1.result? = some r) :
    let b' := (o.program.among b es).2
    (∀ e, r = .error e → b'.cells = (b.others es).cells)
      ∧ ∀ reply, r = .ok reply → match o.stored? reply with
        | none => b'.cells = (b.others es).cells
        | some (org, version) => WroteOnce b org version es b'.cells := by
  have leaves := o.honest.among (.refl keyed) ended
  refine ⟨?_, ?_⟩
  · rintro e rfl
    exact leaves
  · rintro reply rfl
    simp only [Except.toOption, Option.bind_some] at leaves
    cases report : o.stored? reply with
    | none =>
      rw [report] at leaves
      exact leaves
    | some place =>
      rw [report] at leaves
      rcases leaves with once | ⟨_, read, _⟩
      · exact once
      · cases read

/-- Somebody else creates the organization first: then the operation fails, and their document
stands as they wrote it. Where they write for another organization both documents are stored. -/
theorem all_or_nothing_create :
    (((create "acme").program.among (.memory []) [.rival "acme" [7] none, .own]).1.result?
        = some (.error (.rejected (.alreadyExists .org "acme")))
      ∧ ((create "acme").program.among (.memory []) [.rival "acme" [7] none, .own]).2.cells "acme"
        = some ⟨[7], 0⟩)
      ∧ WroteOnce (.memory []) "acme" 0 [.rival "zeta" [7] none, .own]
        ((create "acme").program.among (.memory []) [.rival "zeta" [7] none, .own]).2.cells := by
  have lost : ((create "acme").program.among (.memory []) [.rival "acme" [7] none, .own]).1.result?
      = some (.error (.rejected (.alreadyExists .org "acme"))) := rfl
  have won : ((create "acme").program.among (.memory []) [.rival "zeta" [7] none, .own]).1.result?
      = some (.ok ⟨"acme", 0, ⟨⟨"acme", [], []⟩, .empty⟩, true⟩) := rfl
  refine ⟨⟨lost, ?_⟩, ?_⟩
  · rw [(all_or_nothing (b := .memory []) trivial _ _ lost).1 _ rfl]
    rfl
  · exact (all_or_nothing (b := .memory []) trivial _ _ won).2 _ rfl

end Transaction

end MetricRegistry
