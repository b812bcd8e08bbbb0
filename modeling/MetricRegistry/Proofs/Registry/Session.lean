import MetricRegistry.Proofs.Registry.Accesses
import MetricRegistry.Request.Handler

/-!
# Sessions

A caller of the registry makes one call after the other, each chosen by what came of those before. A
`Session` keeps the calls apart that a program runs together, so that one can say what a call found
and what it gave. `Session.expand` forgets where calls begin and end; `Session.expand_retry` and
`Session.expand_handle` say that an attempt that is made again and the handler of requests are
sessions of calls.
-/

namespace MetricRegistry

open Catalog

/-- One use of the registry. -/
inductive Call where
  | create (org : String)
  | change (org : String) (mutations : List Mutation)
  | look (org : String)
  deriving DecidableEq, Repr

namespace Call

/-- The organization that a call is about. -/
def org : Call → String
  | .create org => org
  | .change org _ => org
  | .look org => org

/-- What a call gives. -/
abbrev Reply : Call → Type
  | .create _ => Committed
  | .change _ _ => Committed
  | .look _ => Clerk

/-- The action of a call. -/
def action : (c : Call) → Action c.Reply
  | .create org => commitNew org
  | .change org mutations => commitChanges org mutations
  | .look org => Clerk.opened org

/-- The accesses of a call. -/
def program (c : Call) : Program (Except RegistryError c.Reply) :=
  ExceptT.run c.action

end Call

/-- A computation that makes calls. -/
inductive Session (α : Type) : Type where
  | done (result : α)
  | call (c : Call) (resume : Except RegistryError c.Reply → Session α)

namespace Session

variable {α β : Type}

/-- Goes on with what comes of a session. -/
def bind (s : Session α) (f : α → Session β) : Session β :=
  match s with
  | .done a => f a
  | .call c resume => .call c fun r => (resume r).bind f

instance : Monad Session where
  pure := .done
  bind := bind

/-- The program of all the accesses of a session. -/
def expand : Session α → Program α
  | .done a => .done a
  | .call c resume => c.program >>= fun r => (resume r).expand

/-- Expansion goes through one session after another. -/
lemma expand_bind (s : Session α) (f : α → Session β) :
    (s >>= f).expand = s.expand >>= fun a => (f a).expand := by
  induction s with
  | done a => rfl
  | call c resume ih =>
    calc c.program >>= (fun r => (resume r >>= f).expand)
        = c.program >>= (fun r => (resume r).expand >>= fun a => (f a).expand) := by
          simp only [ih]
      _ = c.program >>= (fun r => (resume r).expand) >>= fun a => (f a).expand :=
          (Program.bind_assoc _ _ _).symm

/-- Expansion goes through the attempts of a retry loop. -/
lemma expand_loop (attempt : Session (Except RegistryError α)) (n : ℕ) (last : RegistryError) :
    (Retryer.loop attempt n last).expand = Retryer.loop attempt.expand n last := by
  induction n generalizing last with
  | zero => rfl
  | succ n ih =>
    rw [Retryer.loop, Retryer.loop, expand_bind]
    congr 1
    funext r
    cases r with
    | ok a => rfl
    | error e =>
      dsimp only
      split
      · exact ih e
      · rfl

/-- A session of one call. -/
def ask (c : Call) : Session (Except RegistryError c.Reply) :=
  .call c .done

/-- A call expands to its own program. -/
lemma expand_ask (c : Call) : (ask c).expand = c.program :=
  Program.bind_done c.program

/-- Changes that are tried again are a session of calls. -/
lemma expand_retry (retryer : Retryer) (org : String) (ms : List Mutation) :
    (retryer.run (ask (.change org ms))).expand
      = retryer.run (ExceptT.run (commitChanges org ms)) := by
  rw [Retryer.run, expand_loop, expand_ask]
  rfl

end Session

/-! ## The handler as a session -/

/-- A session that may fail. -/
abbrev Dialogue (α : Type) := ExceptT RegistryError Session α

namespace Dialogue

variable {α β : Type}

/-- One call, whose failure is that of the dialogue. -/
def ask (c : Call) : Dialogue c.Reply :=
  ExceptT.mk (Session.ask c)

/-- Goes on with a result or fails with an error. -/
def ofExcept (r : Except RegistryError α) : Dialogue α :=
  ExceptT.mk (.done r)

/-- The action of all the accesses of a dialogue. -/
def expand (d : Dialogue α) : Action α :=
  ExceptT.mk (ExceptT.run d).expand

/-- Expansion goes through one dialogue after another. -/
lemma expand_bind (d : Dialogue α) (f : α → Dialogue β) :
    expand (d >>= f) = expand d >>= fun a => expand (f a) := by
  refine ExceptT.ext ?_
  rw [ExceptT.run_bind]
  refine (Session.expand_bind _ _).trans ?_
  refine congrArg (_ >>= ·) (funext fun r => ?_)
  cases r <;> rfl

/-- An answer that asks nothing expands to itself. -/
lemma expand_pure (a : α) : expand (pure a) = pure a :=
  rfl

/-- A request for a new catalog expands to its first commit. -/
lemma expand_create (org : String) : expand (ask (.create org)) = commitNew org :=
  Session.expand_ask (.create org)

/-- A look expands to the opening of a catalog. -/
lemma expand_look (org : String) : expand (ask (.look org)) = Clerk.opened org :=
  Session.expand_ask (.look org)

/-- A result that is at hand expands to itself. -/
lemma expand_ofExcept (r : Except RegistryError α) : expand (ofExcept r) = Action.ofExcept r :=
  rfl

/-- The calls of an update without changes. -/
def unchanged (org : String) (target : Option Target) : Dialogue Response := do
  let c ← ask (.look org)
  ofExcept ((c.checkTarget target).mapError .rejected)
  return .committed c.schema.orgId c.version false

/-- The calls that a plan needs. -/
def perform (retryer : Retryer) : Plan → Dialogue Response
  | .createOrg org => do return (← ask (.create org)).response
  | .update org mutations target => do
    if mutations.isEmpty then unchanged org target
    else
      let c ← ExceptT.mk (retryer.run (Session.ask (.change org mutations)))
      return Committed.response c
  | .getMetrics org => do
    let c ← ask (.look org)
    return .metrics c.schema.orgId c.version c.schema.metrics.entries
  | .getMetric org metric => do
    let c ← ask (.look org)
    let m ← ofExcept ((c.metric metric).mapError .rejected)
    return .metric c.schema.orgId c.version m
  | .getTenant org => do
    let c ← ask (.look org)
    return .tenant c.schema.toTenant

/-- The calls that a request needs. -/
def handle (retryer : Retryer) (request : Request) : Dialogue Response := do
  let plan ← ofExcept (request.plan.mapError .rejected)
  perform retryer plan

/-- A plan that is carried out as a dialogue expands to the handler's own action. -/
lemma expand_perform (retryer : Retryer) (plan : Plan) :
    expand (perform retryer plan) = plan.perform retryer := by
  cases plan with
  | createOrg org =>
    simp only [perform, Plan.perform, expand_bind, expand_pure]
    exact congrArg (· >>= _) (expand_create org)
  | update org ms target =>
    simp only [perform, Plan.perform]
    split
    · simp only [unchanged, MetricRegistry.unchanged, expand_bind, expand_ofExcept, expand_pure]
      exact congrArg (· >>= _) (expand_look org)
    · rw [expand_bind]
      exact congrArg (· >>= _) (Session.expand_retry retryer org ms)
  | getMetrics org =>
    simp only [perform, Plan.perform, expand_bind, expand_pure]
    exact congrArg (· >>= _) (expand_look org)
  | getMetric org metric =>
    simp only [perform, Plan.perform, expand_bind, expand_ofExcept, expand_pure]
    exact congrArg (· >>= _) (expand_look org)
  | getTenant org =>
    simp only [perform, Plan.perform, expand_bind, expand_pure]
    exact congrArg (· >>= _) (expand_look org)

/-- The calls that a request needs make the accesses that the handler makes. -/
lemma expand_handle (retryer : Retryer) (request : Request) :
    expand (handle retryer request) = MetricRegistry.handle retryer request := by
  rw [handle, expand_bind]
  exact congrArg (_ >>= ·) (funext fun plan => expand_perform retryer plan)

end Dialogue

end MetricRegistry
