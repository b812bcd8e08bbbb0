import MetricRegistry.Proofs.Registry.Session
import MetricRegistry.Proofs.Store.View

/-!
# Clients that share a store

Any number of clients use one store at the same time. A `World` is the store, the clients, each
about to read or to write or finished, and a record of the calls that have returned; `World.access`
lets a client make one access and go on until it needs another. Records and the boundaries of calls
are there for the proofs alone: `World.run_programs` says that the store and what is left of each
client are what comes of interleaving the programs of the sessions, access by access.
-/

namespace MetricRegistry

/-! ## Programs side by side -/

/-- A program after one access, and the store after it. -/
def Program.access {α : Type} (p : Program α) (b : Backing) : Program α × Backing :=
  match p with
  | .done a => (.done a, b)
  | .read key resume =>
    let (reply, b') := (Backing.store.read key).run b
    (resume reply, b')
  | .write key document expected resume =>
    let (reply, b') := (Backing.store.write key document expected).run b
    (resume reply, b')

/-- Programs and their store after one access of a program. -/
def interleave (ps : List (Program Unit) × Backing) (i : ℕ) : List (Program Unit) × Backing :=
  match ps.1[i]? with
  | none => ps
  | some p =>
    let (p', b) := p.access ps.2
    (ps.1.set i p', b)

/-! ## Clients -/

/-- A call that has returned: what was stored when it read, if it did, and what it gave. -/
structure Record where
  call : Call
  base : Option (Option Stored)
  result : Except RegistryError call.Reply

/-- A client between two of its accesses. -/
inductive Client where
  | finished
  /-- About to read, for a call. -/
  | reading (c : Call) (key : String)
    (next : Except RegistryError (Option Stored) → Program (Except RegistryError c.Reply))
    (resume : Except RegistryError c.Reply → Session Unit)
  /-- About to write, for a call that found `base` if it has read. -/
  | writing (c : Call) (base : Option (Option Stored)) (key : String) (document : List UInt8)
    (expected : Option Version)
    (next : Except RegistryError Outcome → Program (Except RegistryError c.Reply))
    (resume : Except RegistryError c.Reply → Session Unit)

/-- A client in a call, up to its next access; `settled` is what comes of it after the call. -/
def Call.await (c : Call) (base : Option (Option Stored))
    (p : Program (Except RegistryError c.Reply))
    (resume : Except RegistryError c.Reply → Session Unit)
    (settled : Except RegistryError c.Reply → List Record × Client) : List Record × Client :=
  match p with
  | .done r => (⟨c, base, r⟩ :: (settled r).1, (settled r).2)
  | .read key next => ([], .reading c key next resume)
  | .write key document expected next => ([], .writing c base key document expected next resume)

/-- A client with a session, up to its first access, and the calls that return without one. -/
def Session.settle : Session Unit → List Record × Client
  | .done _ => ([], .finished)
  | .call c resume => c.await none c.program resume fun r => (resume r).settle

/-- A client that goes on in a call, up to its next access. -/
def Call.goOn (c : Call) (base : Option (Option Stored))
    (p : Program (Except RegistryError c.Reply))
    (resume : Except RegistryError c.Reply → Session Unit) : List Record × Client :=
  c.await base p resume fun r => (resume r).settle

/-- What is left of a client's program. -/
def Client.program : Client → Program Unit
  | .finished => .done ()
  | .reading _ key next resume => .read key fun reply => next reply >>= fun r => (resume r).expand
  | .writing _ _ key document expected next resume =>
    .write key document expected fun reply => next reply >>= fun r => (resume r).expand

/-- Up to its first access nothing is left out of a session but the calls that have returned. -/
lemma Session.program_settle (s : Session Unit) : s.settle.2.program = s.expand := by
  induction s with
  | done a => rfl
  | call c resume ih =>
    rw [settle, expand]
    cases c.program with
    | done r => exact ih r
    | read key next => rfl
    | write key document expected next => rfl

/-- Up to its next access nothing is left out of a call but what has returned. -/
lemma Call.program_goOn (c : Call) (base : Option (Option Stored))
    (p : Program (Except RegistryError c.Reply))
    (resume : Except RegistryError c.Reply → Session Unit) :
    (c.goOn base p resume).2.program = p >>= fun r => (resume r).expand := by
  cases p with
  | done r => exact Session.program_settle (resume r)
  | read key next => rfl
  | write key document expected next => rfl

/-! ## Worlds -/

/-- A store, its clients, and the calls that have returned, in that order. -/
structure World where
  store : Backing
  clients : List Client
  records : List Record

namespace World

/-- A store and clients that are about to begin. -/
def start (b : Backing) (sessions : List (Session Unit)) : World :=
  ⟨b, sessions.map fun s => s.settle.2, sessions.flatMap fun s => s.settle.1⟩

/-- The world after a client has gone on. -/
def proceed (w : World) (i : ℕ) (store : Backing) (outcome : List Record × Client) : World :=
  ⟨store, w.clients.set i outcome.2, w.records ++ outcome.1⟩

/-- The world after one access of a client. -/
def access (w : World) (i : ℕ) : World :=
  match w.clients[i]? with
  | none => w
  | some .finished => w
  | some (.reading c key next resume) =>
    let (reply, store) := (Backing.store.read key).run w.store
    w.proceed i store (c.goOn (some (w.store.view key)) (next reply) resume)
  | some (.writing c base key document expected next resume) =>
    let (reply, store) := (Backing.store.write key document expected).run w.store
    w.proceed i store (c.goOn base (next reply) resume)

/-- The world after accesses of several clients. -/
def run (w : World) (schedule : List ℕ) : World :=
  schedule.foldl access w

/-- The programs that are left, and the store. -/
def programs (w : World) : List (Program Unit) × Backing :=
  (w.clients.map Client.program, w.store)

/-- An access of a client is one of its program. -/
lemma access_programs (w : World) (i : ℕ) : (w.access i).programs = interleave w.programs i := by
  cases here : w.clients[i]? with
  | none => simp [access, interleave, programs, here]
  | some client =>
    cases client with
    | finished =>
      -- the program of a finished client is done, and an access leaves it so
      have left : (w.clients.map Client.program)[i]? = some (.done ()) := by
        simp [here, Client.program]
      obtain ⟨lt, eq⟩ := List.getElem?_eq_some_iff.mp left
      have same := List.set_getElem_self lt
      rw [eq] at same
      simp only [access, here, interleave, programs, left, Program.access, same]
    | reading c key next resume =>
      simp only [access, here, proceed, interleave, programs, List.getElem?_map, Option.map_some,
        Client.program, Program.access]
      generalize (Backing.store.read key).run w.store = replied
      obtain ⟨reply, store⟩ := replied
      simp only [List.map_set, Call.program_goOn]
    | writing c base key document expected next resume =>
      simp only [access, here, proceed, interleave, programs, List.getElem?_map, Option.map_some,
        Client.program, Program.access]
      generalize (Backing.store.write key document expected).run w.store = replied
      obtain ⟨reply, store⟩ := replied
      simp only [List.map_set, Call.program_goOn]

/-- What comes of a world is what comes of the programs of its sessions, side by side. -/
theorem run_programs (b : Backing) (sessions : List (Session Unit)) (schedule : List ℕ) :
    ((start b sessions).run schedule).programs
      = schedule.foldl interleave (sessions.map Session.expand, b) := by
  have first : (start b sessions).programs = (sessions.map Session.expand, b) := by
    simp [programs, start, Session.program_settle, Function.comp_def]
  rw [← first]
  -- from any world: what comes before does not matter
  generalize start b sessions = w
  induction schedule generalizing w with
  | nil => rfl
  | cons i schedule ih =>
    rw [run, List.foldl_cons, List.foldl_cons, ← access_programs]
    exact ih (w.access i)

end World

end MetricRegistry
