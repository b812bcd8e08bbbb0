import MetricRegistry.Proofs.Registry.Interference

/-!
# What a program calls

`Program.Runs` says which calls of a store a program makes, with the replies to them, and what it
gives in the end; a reply may be anything but an error that is no failure of the store. Such a run
is taken apart where the program is (`Program.runs_bind`). `Program.calls` are the calls that a
program makes among rivals and failures: `Program.runs_calls` says that they are a run of it, and
`Program.ends` that it ends if none of its runs is longer than the accesses that it has made.
-/

namespace MetricRegistry

/-- A call of a store and the reply to it. -/
inductive StoreCall where
  | read (key : String) (reply : Except RegistryError (Option Stored))
  | write (key : String) (document : List UInt8) (expected : Option Version)
    (reply : Except RegistryError Outcome)
  deriving DecidableEq, Repr

namespace StoreCall

/-- Whether a call reads. -/
def isRead : StoreCall → Bool
  | .read _ _ => true
  | .write _ _ _ _ => false

/-- Whether a call writes. -/
def isWrite (c : StoreCall) : Bool :=
  !c.isRead

end StoreCall

/-- An error on the side of the store: nobody was overtaken, and the caller is not to blame. -/
def RegistryError.IsFailure (e : RegistryError) : Prop :=
  e.isConflict = false ∧ e.isRejection = false

/-- A reply that a store may give: what went wrong is on its side. -/
def Served {α : Type} (reply : Except RegistryError α) : Prop :=
  ∀ e, reply = .error e → e.IsFailure

/-- Whether an event moves the program that it happens to. -/
def Event.moves : Event → Bool
  | .rival _ _ _ => false
  | _ => true

/-! ## Stores serve -/

/-- An answer is a reply that a store may give. -/
lemma served_ok {α : Type} (a : α) : Served (.ok a) :=
  nofun

/-- A report of damage is a reply that a store may give. -/
lemma served_corruption {α : Type} (damage : Damage) :
    Served (.error (.corruption damage) : Except RegistryError α) := by
  rintro e eq
  cases eq
  exact ⟨rfl, rfl⟩

/-- What is made of the replies of a store is one. -/
lemma Served.bind {α β : Type} {x : Except RegistryError α} {f : α → Except RegistryError β}
    (first : Served x) (rest : ∀ a, Served (f a)) : Served (x >>= f) := by
  cases x with
  | error e =>
    intro e' eq
    cases eq
    exact first e rfl
  | ok a => exact rest a

/-- A version that cannot be written out is reported. -/
lemma served_encodeVersion (version : Version) : Served (encodeVersion version) := by
  unfold encodeVersion
  split
  · exact served_ok _
  · exact served_corruption _

/-- A stored number that is no version is reported. -/
lemma served_decodeVersion (stored : Int) : Served (decodeVersion stored) := by
  unfold decodeVersion
  split
  · exact served_ok _
  · exact served_corruption _

/-- Cells reply to a read as a store may. -/
lemma Cells.served_read (cs : Cells) (key : String) : Served (cs.read key) := by
  unfold Cells.read
  split
  · exact served_ok _
  · exact (served_decodeVersion _).bind fun _ => served_ok _

/-- A table replies to a write as a store may. -/
lemma Table.served_write (t : Table) (key : String) (document : List UInt8)
    (expected : Option Version) : Served (t.write key document expected) := by
  refine Served.bind ((served_encodeVersion _).bind fun version => ?_) fun changed => ?_
  · cases expected with
    | none => exact served_ok _
    | some current => exact (served_encodeVersion _).bind fun _ => served_ok _
  · obtain ⟨rows, t'⟩ := changed
    dsimp only
    split
    · exact served_ok _
    cases t'.select key with
    | none => exact served_ok _
    | some row => exact (served_decodeVersion _).bind fun _ => served_ok _

/-- A backing replies to a write as a store may. -/
lemma Backing.served_write (b : Backing) (key : String) (document : List UInt8)
    (expected : Option Version) : Served ((store.write key document expected).run b).1 := by
  cases b with
  | memory ds => exact served_ok _
  | table name db =>
    have served := (db.table name).served_write key document expected
    have run : ((store.write key document expected).run (table name db)).1
        = ((db.table name).write key document expected).map Prod.fst := by
      cases written : (db.table name).write key document expected with
      | error e => simp [store, StateT.run_bind, written]; rfl
      | ok result => simp [store, StateT.run_bind, written]; rfl
    rw [run]
    cases written : (db.table name).write key document expected with
    | ok result => exact served_ok _
    | error e =>
      intro e' eq
      cases eq
      exact served e written

/-! ## Runs -/

namespace Program

variable {α β : Type}

/-- A program makes calls, and gives a result after the last. -/
inductive Runs {α : Type} : Program α → List StoreCall → α → Prop where
  | done {a} :
    Runs (.done a) [] a
  | read {key resume reply calls a} :
    Served reply →
    Runs (resume reply) calls a →
    Runs (.read key resume) (.read key reply :: calls) a
  | write {key document expected resume reply calls a} :
    Served reply →
    Runs (resume reply) calls a →
    Runs (.write key document expected resume) (.write key document expected reply :: calls) a

/-- A run of a program that goes on is a run of each part. -/
lemma runs_bind {p : Program α} {f : α → Program β} {calls : List StoreCall} {b : β}
    (runs : Runs (p >>= f) calls b) :
    ∃ before after a, calls = before ++ after ∧ Runs p before a ∧ Runs (f a) after b := by
  induction p generalizing calls with
  | done a => exact ⟨[], calls, a, rfl, .done, runs⟩
  | read key resume ih =>
    cases runs with
    | read served rest =>
      obtain ⟨before, after, a, rfl, first, last⟩ := ih _ rest
      exact ⟨_, after, a, rfl, .read served first, last⟩
  | write key document expected resume ih =>
    cases runs with
    | write served rest =>
      obtain ⟨before, after, a, rfl, first, last⟩ := ih _ rest
      exact ⟨_, after, a, rfl, .write served first, last⟩

/-- What an action goes on with is run unless it fails. -/
lemma runs_andThen {a : Action α} {f : α → Action β} {calls : List StoreCall}
    {r : Except RegistryError β} (runs : Runs (ExceptT.run (a >>= f)) calls r) :
    (∃ e, r = .error e ∧ Runs (ExceptT.run a) calls (.error e))
      ∨ ∃ before after x, calls = before ++ after ∧ Runs (ExceptT.run a) before (.ok x)
        ∧ Runs (ExceptT.run (f x)) after r := by
  rw [ExceptT.run_bind] at runs
  obtain ⟨before, after, x, rfl, first, last⟩ := runs_bind runs
  cases x with
  | ok x => exact .inr ⟨before, after, x, rfl, first, last⟩
  | error e =>
    cases last with
    | done => exact .inl ⟨e, rfl, by rwa [List.append_nil]⟩

/-- Every program can be run. -/
lemma exists_runs (p : Program α) : ∃ calls a, Runs p calls a := by
  induction p with
  | done a => exact ⟨[], a, .done⟩
  | read key resume ih =>
    obtain ⟨calls, a, runs⟩ := ih (.ok none)
    exact ⟨_, a, .read (served_ok _) runs⟩
  | write key document expected resume ih =>
    obtain ⟨calls, a, runs⟩ := ih (.ok (.conflict none))
    exact ⟨_, a, .write (served_ok _) runs⟩

/-! ## Calls among rivals -/

/-- The call that a program makes in an event, if it makes one. -/
def call? (b : Backing) : Program α → Event → Option StoreCall
  | .read key _, .own => some (.read key ((Backing.store.read key).run b).1)
  | .read key _, .fault e => some (.read key (.error e))
  | .write key document expected _, .own =>
    some (.write key document expected ((Backing.store.write key document expected).run b).1)
  | .write key document expected _, .fault e => some (.write key document expected (.error e))
  | _, _ => none

/-- The calls that a program makes while things happen. -/
def calls (p : Program α) (b : Backing) : List Event → List StoreCall
  | [] => []
  | e :: es => (p.call? b e).toList ++ calls (after (p, b) e).1 (after (p, b) e).2 es

/-- Whatever fails is the store. -/
def Failing (es : List Event) : Prop :=
  ∀ e, .fault e ∈ es → e.IsFailure

/-- The errors that failing events inject are replies that a store may give. -/
lemma Failing.fault {e : RegistryError} {es : List Event} (failing : Failing (.fault e :: es)) :
    Served (.error e : Except RegistryError α) := by
  rintro e' eq
  cases eq
  exact failing e (List.mem_cons_self ..)

/-- A finished program makes no more calls. -/
lemma calls_done (a : α) (b : Backing) (es : List Event) : (done a).calls b es = [] := by
  induction es generalizing b with
  | nil => rfl
  | cons e es ih => cases e <;> exact ih _

/-- What a program calls until it is done is a run of it. -/
lemma runs_calls {p : Program α} {b : Backing} {es : List Event} (failing : Failing es) {a : α}
    (ended : (p.among b es).1.result? = some a) : Runs p (p.calls b es) a := by
  induction es generalizing p b with
  | nil =>
    cases p with
    | done a' =>
      obtain rfl := Option.some.inj ended
      exact .done
    | read => cases ended
    | write => cases ended
  | cons e es ih =>
    have rest := @ih (after (p, b) e).1 (after (p, b) e).2
      (fun f mem => failing f (List.mem_cons_of_mem e mem)) ended
    -- a rival moves the store alone, and the program makes no call
    cases p with
    | done a' =>
      rw [among_done] at ended
      obtain rfl := Option.some.inj ended
      rw [calls_done]
      exact .done
    | read key resume =>
      cases e with
      | own =>
        refine .read ?_ rest
        rw [Backing.run_read_cells]
        exact Cells.served_read _ _
      | fault e => exact .read failing.fault rest
      | rival => exact rest
    | write key document expected resume =>
      cases e with
      | own => exact .write (b.served_write key document expected) rest
      | fault e => exact .write failing.fault rest
      | rival => exact rest

/-- A program that has made as many accesses as its longest run has come to its end. -/
lemma ends {p : Program α} {b : Backing} {es : List Event} (failing : Failing es) {n : ℕ}
    (short : ∀ calls a, Runs p calls a → calls.length ≤ n) (moved : n ≤ es.countP Event.moves) :
    ∃ a, (p.among b es).1.result? = some a := by
  induction es generalizing p b n with
  | nil =>
    obtain ⟨calls, a, runs⟩ := p.exists_runs
    have none : calls.length = 0 := Nat.le_zero.mp (Nat.le_trans (short calls a runs) moved)
    cases runs with
    | done => exact ⟨a, rfl⟩
    | read => cases none
    | write => cases none
  | cons e es ih =>
    have failing' : Failing es := fun f mem => failing f (List.mem_cons_of_mem e mem)
    -- an event either leaves the program as it is, or takes the first call off its runs
    have next : ∀ (p' : Program α) (b' : Backing) (call : StoreCall), e.moves = true →
        after (p, b) e = (p', b') → (∀ calls a, Runs p' calls a → Runs p (call :: calls) a) →
        ∃ a, (p.among b (e :: es)).1.result? = some a := by
      intro p' b' call moves step longer
      rw [among_cons, step]
      have fewer : n - 1 ≤ es.countP Event.moves := by
        rw [List.countP_cons, if_pos moves] at moved
        omega
      refine ih failing' (n := n - 1) (fun calls a runs => ?_) fewer
      have length := short _ _ (longer calls a runs)
      rw [List.length_cons] at length
      omega
    cases p with
    | done a => exact ⟨a, by rw [among_done]; rfl⟩
    | read key resume =>
      cases e with
      | own =>
        exact next _ _ (.read key (b.cells.read key)) rfl (access_read key resume b)
          fun calls a runs => Runs.read (Cells.served_read _ _) runs
      | fault e =>
        exact next _ _ (.read key (.error e)) rfl rfl fun calls a runs =>
          .read failing.fault runs
      | rival => exact ih failing' short moved
    | write key document expected resume =>
      cases e with
      | own =>
        exact next _ _ (.write key document expected _) rfl
          (access_write key document expected resume b)
          fun calls a runs => Runs.write (b.served_write key document expected) runs
      | fault e =>
        exact next _ _ (.write key document expected (.error e)) rfl rfl fun calls a runs =>
          .write failing.fault runs
      | rival => exact ih failing' short moved

end Program

end MetricRegistry
