import MetricRegistry.Proofs.Catalog.Mutation
import MetricRegistry.Proofs.Catalog.RoundTrip
import MetricRegistry.Registry.Commit
import MetricRegistry.Registry.Retry

/-!
# The accesses of commits

Looking at a catalog is one read, and a commit one write that may follow a read. The lemmas
`run_opened`, `run_commitNew` and `run_commitChanges` write the actions out as the programs they
are, so that what happens between two accesses of one can be told. `Program.run_bind` and
`Retryer.run_loop` say that a program may as well be run in parts.
-/

namespace MetricRegistry

open Catalog

namespace Program

variable {α β : Type}

/-- A program that has ended goes on at once. -/
@[simp]
lemma done_bind (a : α) (f : α → Program β) : (done a >>= f) = f a :=
  rfl

/-- A program goes on after it has read. -/
@[simp]
lemma read_bind (key : String) (resume : Except RegistryError (Option Stored) → Program α)
    (f : α → Program β) : (read key resume >>= f) = read key fun r => resume r >>= f :=
  rfl

/-- A program goes on after it has written. -/
@[simp]
lemma write_bind (key : String) (document : List UInt8) (expected : Option Version)
    (resume : Except RegistryError Outcome → Program α) (f : α → Program β) :
    (write key document expected resume >>= f)
      = write key document expected fun r => resume r >>= f :=
  rfl

/-- Nothing comes after a program that ends with its result. -/
lemma bind_done (p : Program α) : (p >>= done) = p := by
  induction p with
  | done a => rfl
  | read key resume ih => exact congrArg (read key) (funext ih)
  | write key document expected resume ih =>
    exact congrArg (write key document expected) (funext ih)

/-- Three programs one after the other are the same however they are grouped. -/
lemma bind_assoc {γ : Type} (p : Program α) (f : α → Program β) (g : β → Program γ) :
    (p >>= f >>= g) = p >>= fun a => f a >>= g := by
  induction p with
  | done a => rfl
  | read key resume ih => exact congrArg (read key) (funext ih)
  | write key document expected resume ih =>
    exact congrArg (write key document expected) (funext ih)

instance : LawfulMonad Program :=
  LawfulMonad.mk' Program bind_done (fun _ _ => rfl) bind_assoc

/-- Two programs run on a store one after the other. -/
lemma run_bind {m : Type → Type} [Monad m] [LawfulMonad m] (store : Store m) (p : Program α)
    (f : α → Program β) : run store (p >>= f) = run store p >>= fun a => run store (f a) := by
  induction p with
  | done a => simp [run]
  | read key resume ih => simp [run, ih]
  | write key document expected resume ih => simp [run, ih]

end Program

namespace Action

variable {α β : Type}

/-- A result is a program that has ended. -/
@[simp]
lemma run_ofExcept (r : Except RegistryError α) : ExceptT.run (ofExcept r) = .done r :=
  rfl

/-- Reading is a program of one access. -/
@[simp]
lemma run_read (key : String) : ExceptT.run (read key) = .read key .done :=
  rfl

/-- Writing is a program of one access. -/
@[simp]
lemma run_write (key : String) (document : List UInt8) (expected : Option Version) :
    ExceptT.run (write key document expected) = .write key document expected .done :=
  rfl

/-- What comes after an action is run after it, unless it fails. -/
lemma runOn_bind {m : Type → Type} [Monad m] [LawfulMonad m] (store : Store m) (a : Action α)
    (f : α → Action β) :
    (a >>= f).runOn store = a.runOn store >>= fun r =>
      match r with
      | .ok x => (f x).runOn store
      | .error e => pure (.error e) := by
  simp only [runOn, ExceptT.run_bind, Program.run_bind]
  congr 1
  funext r
  cases r <;> rfl

end Action

/-- Attempts of a program are run as attempts. -/
lemma Retryer.run_loop {m : Type → Type} [Monad m] [LawfulMonad m] {α : Type} (store : Store m)
    (attempt : Program (Except RegistryError α)) (n : ℕ) (last : RegistryError) :
    Program.run store (loop attempt n last) = loop (Program.run store attempt) n last := by
  induction n generalizing last with
  | zero => rfl
  | succ n ih =>
    simp only [loop, Program.run_bind]
    congr 1
    funext r
    cases r with
    | ok a => rfl
    | error e =>
      dsimp only
      split
      · exact ih e
      · rfl

/-- A document is used if it is decoded and belongs to its key. -/
lemma schemaOf_eq_ok {key : String} {stored : Stored} {s : Schema} :
    schemaOf key stored = .ok s ↔ Schema.decode stored.document = .ok s ∧ s.orgId = key := by
  simp only [schemaOf, Except.bind_eq_ok]
  constructor
  · rintro ⟨t, decoded, rest⟩
    by_cases own : t.orgId = key
    · simp only [own, bne_self_eq_false, Bool.false_eq_true, if_false, Except.pure_eq_ok] at rest
      exact rest ▸ ⟨decoded, own⟩
    · simp [own] at rest
  · rintro ⟨decoded, rfl⟩
    refine ⟨s, decoded, ?_⟩
    simp only [bne_self_eq_false, Bool.false_eq_true, if_false, Except.pure_eq_ok]

/-- The document of a catalog is decoded under the key of its organization. -/
lemma schemaOf_encode {s : Schema} (unambiguous : s.Unambiguous) (version : Version) :
    schemaOf s.orgId ⟨s.encode, version⟩ = .ok s :=
  schemaOf_eq_ok.mpr ⟨Schema.decode_encode (Schema.check_eq_ok.mpr unambiguous), rfl⟩

/-- What the reply to a read tells about an organization. -/
def Clerk.ofReply (org : String) : Except RegistryError (Option Stored) → Except RegistryError Clerk
  | .error e => .error e
  | .ok none => .error (.rejected (.notFound .org org))
  | .ok (some stored) => (schemaOf org stored).map fun s => ⟨stored.version, s⟩

/-- What the reply to a write tells about a commit, where `lost` stands for a conflict. -/
def Committed.ofReply (org : String) (schema : Schema) (lost : RegistryError) :
    Except RegistryError Outcome → Except RegistryError Committed
  | .error e => .error e
  | .ok (.committed version) => .ok ⟨org, version, schema, true⟩
  | .ok (.conflict _) => .error lost

/-- A commit as it is about to write. -/
def Committed.writing (org : String) (schema : Schema) (expected : Option Version)
    (lost : RegistryError) : Program (Except RegistryError Committed) :=
  .write org schema.encode expected fun r => .done (Committed.ofReply org schema lost r)

/-- What is left of a commit of changes after its read. -/
def Committed.afterRead (org : String) (ms : List Mutation) :
    Except RegistryError Clerk → Program (Except RegistryError Committed)
  | .error e => .done (.error e)
  | .ok base =>
    if ms.isEmpty then .done (.ok ⟨org, base.version, base.schema, false⟩)
    else match base.schema.applyAll ms with
      | .error rejection => .done (.error (.rejected rejection))
      | .ok s => writing org s (some base.version) (.conflict org (some base.version))

/-- A clerk is opened by one read. -/
lemma run_opened (org : String) :
    ExceptT.run (Clerk.opened org) = .read org fun r => .done (Clerk.ofReply org r) := by
  simp only [Clerk.opened, ExceptT.run_bind, Action.run_read, Program.read_bind]
  congr 1
  funext r
  obtain e | _ | stored := r
  · rfl
  · rfl
  · simp only [Program.done_bind, ExceptT.run_bind, Action.run_ofExcept, Clerk.ofReply]
    cases schemaOf org stored <;> rfl

/-- A creation writes once, unless its name is not valid. -/
lemma run_commitNew (org : String) :
    ExceptT.run (commitNew org) = match Schema.ofOrg org with
      | .error violation => .done (.error (.rejected (.invalid violation)))
      | .ok s => Committed.writing org s none (.rejected (.alreadyExists .org org)) := by
  simp only [commitNew, ExceptT.run_bind, Action.run_ofExcept, Program.done_bind]
  cases Schema.ofOrg org with
  | error violation => rfl
  | ok s =>
    simp only [Except.mapError, Action.run_write, Program.write_bind, Committed.writing]
    congr 1
    funext r
    obtain e | _ | _ := r <;> rfl

/-- A commit of changes is one read, and one write unless there is nothing to write. -/
lemma run_commitChanges (org : String) (ms : List Mutation) :
    ExceptT.run (commitChanges org ms)
      = .read org fun r => Committed.afterRead org ms (Clerk.ofReply org r) := by
  simp only [commitChanges, ExceptT.run_bind, run_opened, Program.read_bind]
  congr 1
  funext r
  rw [Program.done_bind]
  -- what is left after the read depends on the clerk, and the write on the changes
  cases Clerk.ofReply org r with
  | error e => rfl
  | ok base =>
    simp only [Committed.afterRead]
    split
    · rfl
    · simp only [ExceptT.run_bind, Action.run_ofExcept, Program.done_bind]
      cases base.schema.applyAll ms with
      | error rejection => rfl
      | ok s =>
        simp only [Except.mapError, Action.run_write, Program.write_bind, Committed.writing]
        congr 1
        funext r
        obtain e | _ | _ := r <;> rfl

end MetricRegistry
