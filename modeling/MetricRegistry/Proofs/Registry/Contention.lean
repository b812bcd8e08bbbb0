import MetricRegistry.Proofs.Registry.Interference
import MetricRegistry.Store.Contended

/-!
# Contention is interference

A store under contention fails now and then, and lets a rival commit before a write. Both are events
that a program can meet: `Contention.run_among` says that what a program does on such a store is one
of its runs among rivals and failures, so whatever holds of all these holds there.
-/

namespace MetricRegistry

variable {α β : Type}

/-- A program that runs by itself does what others do: it writes now and then. -/
lemma Program.run_others (p : Program α) (b : Backing) :
    ∃ a es, (∀ e ∈ es, e.IsRival) ∧ (p.run Backing.store).run b = (a, b.others es) := by
  induction p generalizing b with
  | done a => exact ⟨a, [], by simp, rfl⟩
  | read key resume ih =>
    obtain ⟨a, es, rivals, run⟩ := ih (b.cells.read key) b
    exact ⟨a, es, rivals, (StateM.run_bind_of_run (Backing.run_read_cells b key)).trans run⟩
  | write key document expected resume ih =>
    obtain ⟨a, es, rivals, run⟩ := ih ((Backing.store.write key document expected).run b).1
      (b.other (.rival key document expected))
    refine ⟨a, .rival key document expected :: es, List.forall_mem_cons.mpr ⟨trivial, rivals⟩, ?_⟩
    exact (StateM.run_bind_of_run rfl).trans run

namespace Contention

variable {c c' : Contention} {b b' : Backing}

/-- One run after another starts where the first one ends. -/
lemma run_bind {x : StateT Contention (StateM Backing) α}
    {f : α → StateT Contention (StateM Backing) β} {a : α}
    (run : (x.run c).run b = ((a, c'), b')) :
    ((x >>= f).run c).run b = ((f a).run c').run b' := by
  rw [StateT.run_bind, StateM.run_bind_of_run run]

/-- What is done to the backing leaves the contention as it is. -/
lemma run_lift {x : StateM Backing α} {a : α} (run : x.run b = (a, b')) (c : Contention) :
    ((liftM x : StateT Contention (StateM Backing) α).run c).run b = ((a, c), b') := by
  have lifted : (liftM x : StateT Contention (StateM Backing) α).run c
      = x >>= fun a => pure (a, c) := rfl
  rw [lifted, StateM.run_bind_of_run run]
  rfl

/-- A read of the contended store is one event of an interleaving. -/
lemma run_read (c : Contention) (b : Backing) (key : String) :
    ∃ reply c' e, (((store Backing.store).read key).run c).run b = ((reply, c'), b)
      ∧ ∀ resume : _ → Program α, Program.after (.read key resume, b) e = (resume reply, b) := by
  have counted : ((modifyGet countRead : StateT Contention (StateM Backing) Bool).run c).run b
      = ((decide (0 < c.failingReads), c.countRead.2), b) := rfl
  by_cases fails : 0 < c.failingReads
  · refine ⟨.error (.io "injected read failure"), c.countRead.2,
      .fault (.io "injected read failure"), (run_bind counted).trans ?_, fun resume => rfl⟩
    simp only [fails, decide_true, if_true]
    rfl
  · refine ⟨b.cells.read key, c.countRead.2, .own, (run_bind counted).trans ?_,
      fun resume => Program.access_read ..⟩
    simp only [fails, decide_false, Bool.false_eq_true, if_false]
    exact run_lift (Backing.run_read_cells b key) _

/-- A race is some writes of rivals. -/
lemma run_race (c : Contention) (b : Backing) (rival : Option Rival) :
    ∃ r es, (∀ e ∈ es, e.IsRival)
      ∧ ((liftM (race Backing.store rival) : StateT Contention (StateM Backing) _).run c).run b
        = ((r, c), b.others es) := by
  cases rival with
  | none => exact ⟨.ok (), [], by simp, rfl⟩
  | some rival =>
    obtain ⟨a, es, rivals, run⟩ :=
      Program.run_others (ExceptT.run (commitChanges rival.org rival.mutations)) b
    refine ⟨a.map fun _ => (), es, rivals, run_lift ?_ c⟩
    refine (StateM.run_bind_of_run run).trans ?_
    cases a <;> rfl

/-- A write to the contended store is one write among the writes of rivals. -/
lemma run_write (c : Contention) (b : Backing) (key : String) (document : List UInt8)
    (expected : Option Version) :
    ∃ reply c' es b', (((store Backing.store).write key document expected).run c).run b
        = ((reply, c'), b')
      ∧ ∀ resume : _ → Program α,
        (Program.write key document expected resume).among b es = (resume reply, b') := by
  have counted : ((modifyGet countWrite : StateT Contention (StateM Backing) Bool).run c).run b
      = ((decide (0 < c.failingWrites), c.countWrite.2), b) := rfl
  by_cases fails : 0 < c.failingWrites
  · refine ⟨.error (.io "injected write failure"), c.countWrite.2,
      [.fault (.io "injected write failure")], b, (run_bind counted).trans ?_, fun resume => rfl⟩
    simp only [fails, decide_true, if_true]
    rfl
  · obtain ⟨rival, c', picked⟩ : ∃ rival c', ∀ rest : Option Rival →
        StateT Contention (StateM Backing) (Except RegistryError Outcome),
          ((if expected.isSome then modifyGet nextRace >>= rest else pure none >>= rest).run
            c.countWrite.2).run b = ((rest rival).run c').run b := by
      split <;> exact ⟨_, _, fun rest => rfl⟩
    obtain ⟨r, es, rivals, raced⟩ := run_race c' b rival
    cases r with
    -- a rival that fails is to the program a write of its own that fails
    | error e =>
      refine ⟨.error e, c', es ++ [.fault e], b.others es,
        (run_bind counted).trans ?_, fun resume => ?_⟩
      · simp only [fails, decide_false, Bool.false_eq_true, if_false]
        refine (picked _).trans ?_
        exact (run_bind raced).trans rfl
      · rw [Program.among_append, Program.among_rivals rivals]
        rfl
    | ok u =>
      refine ⟨((Backing.store.write key document expected).run (b.others es)).1, c', es ++ [.own],
        (b.others es).other (.rival key document expected), (run_bind counted).trans ?_,
        fun resume => ?_⟩
      · simp only [fails, decide_false, Bool.false_eq_true, if_false]
        refine (picked _).trans ?_
        exact (run_bind raced).trans (run_lift rfl c')
      · rw [Program.among_append, Program.among_rivals rivals]
        rfl

/-- What a program does on a store under contention is a run among rivals and failures. -/
theorem run_among (p : Program α) (c : Contention) (b : Backing) :
    ∃ a c' es, ((p.run (store Backing.store)).run c).run b = ((a, c'), (p.among b es).2)
      ∧ (p.among b es).1.result? = some a := by
  induction p generalizing c b with
  | done a => exact ⟨a, c, [], rfl, rfl⟩
  | read key resume ih =>
    obtain ⟨reply, c₁, e, read, step⟩ := run_read c b key
    obtain ⟨a, c', es, run, ended⟩ := ih reply c₁ b
    refine ⟨a, c', e :: es, ?_, ?_⟩
    · rw [Program.run, run_bind read, run, Program.among_cons, step]
    · rwa [Program.among_cons, step]
  | write key document expected resume ih =>
    obtain ⟨reply, c₁, es₁, b₁, write, step⟩ := run_write c b key document expected
    obtain ⟨a, c', es, run, ended⟩ := ih reply c₁ b₁
    refine ⟨a, c', es₁ ++ es, ?_, ?_⟩
    · rw [Program.run, run_bind write, run, Program.among_append, step]
    · rwa [Program.among_append, step]

end Contention

end MetricRegistry
