import MetricRegistry.Proofs.Registry.Accesses
import MetricRegistry.Proofs.Store.Cells

/-!
# Programs that run alone

A program that nobody disturbs is a function of what its store holds. `Program.alone` is that
function on `Cells`, without a store around them, and `Backing.run_alone` says that a store of
either kind does the same. So what is said of runs on a store may be proved of cells, of which there
is one kind only.
-/

namespace MetricRegistry

/-- The store that keeps cells and nothing else, where versions are limited or not. -/
def Cells.store (limited : Bool) : Store (StateM Cells) where
  read key := do return (← get).read key
  write key document expected := modifyGet fun cs => cs.write limited key document expected

namespace Program

variable {α β : Type} {limited : Bool} {cs : Cells}

/-- What a program gives that runs alone, and what is held then. -/
def alone (limited : Bool) (p : Program α) (cs : Cells) : α × Cells :=
  (p.run (Cells.store limited)).run cs

/-- A finished program gives its result. -/
@[simp]
lemma alone_done (a : α) : (done a).alone limited cs = (a, cs) :=
  rfl

/-- A read goes on with what the cells hold. -/
lemma alone_read (key : String) (resume : Except RegistryError (Option Stored) → Program α) :
    (read key resume).alone limited cs = (resume (cs.read key)).alone limited cs :=
  rfl

/-- A write goes on with what the cells say and leave. -/
lemma alone_write (key : String) (document : List UInt8) (expected : Option Version)
    (resume : Except RegistryError Outcome → Program α) :
    (write key document expected resume).alone limited cs
      = (resume (cs.write limited key document expected).1).alone limited
        (cs.write limited key document expected).2 :=
  rfl

/-- One program after another starts where the first one ends. -/
lemma alone_bind (p : Program α) (f : α → Program β) :
    (p >>= f).alone limited cs
      = (f (p.alone limited cs).1).alone limited (p.alone limited cs).2 := by
  induction p generalizing cs with
  | done a => rfl
  | read key resume ih => exact ih (cs.read key)
  | write key document expected resume ih => exact ih (cs.write limited key document expected).1

/-- Programs in a list run from the first to the last. -/
lemma alone_mapM_cons {ι : Type} (f : ι → Program α) (i : ι) (is : List ι) :
    ((i :: is).mapM f).alone limited cs
      = (((f i).alone limited cs).1 :: ((is.mapM f).alone limited ((f i).alone limited cs).2).1,
        ((is.mapM f).alone limited ((f i).alone limited cs).2).2) := by
  simp only [List.mapM_cons, alone_bind]
  rfl

variable {a : Action α} {f : α → Action β}

/-- After a success, the rest runs on its answer. -/
lemma alone_andThen_of_ok {x : α} {ds : Cells}
    (first : (ExceptT.run a).alone limited cs = (.ok x, ds)) :
    (ExceptT.run (a >>= f)).alone limited cs = (ExceptT.run (f x)).alone limited ds := by
  rw [ExceptT.run_bind, alone_bind, first]

/-- After a failure, nothing runs. -/
lemma alone_andThen_of_error {e : RegistryError} {ds : Cells}
    (first : (ExceptT.run a).alone limited cs = (.error e, ds)) :
    (ExceptT.run (a >>= f)).alone limited cs = (.error e, ds) := by
  rw [ExceptT.run_bind, alone_bind, first]
  rfl

end Program

/-- A store does for a program that runs alone what cells do. -/
lemma Backing.run_alone {α : Type} {b : Backing} (keyed : b.Keyed) (p : Program α) :
    ∃ a b', (p.run store).run b = (a, b') ∧ b'.Keyed ∧ b'.limited = b.limited
      ∧ p.alone b.limited b.cells = (a, b'.cells) := by
  induction p generalizing b with
  | done a => exact ⟨a, b, rfl, keyed, rfl, rfl⟩
  | read key resume ih =>
    obtain ⟨a, b', run, rest⟩ := ih (b.cells.read key) keyed
    exact ⟨a, b', (StateM.run_bind_of_run (run_read_cells b key)).trans run, rest⟩
  | write key document expected resume ih =>
    obtain ⟨r, b₁, write, keyed₁, kind₁, swapped⟩ := run_write_cells keyed key document expected
    obtain ⟨a, b', run, keyed', kind', alone⟩ := ih r keyed₁
    refine ⟨a, b', (StateM.run_bind_of_run write).trans run, keyed', kind'.trans kind₁, ?_⟩
    rw [Program.alone_write, swapped, ← kind₁]
    exact alone

/-- What a program does to cells is what it does to a backing that keeps them. -/
lemma Backing.run_of_alone {α : Type} {b : Backing} {p : Program α} {a : α} {cs : Cells}
    (keyed : b.Keyed) (alone : p.alone b.limited b.cells = (a, cs)) :
    ∃ b', (p.run store).run b = (a, b') ∧ b'.Keyed ∧ b'.limited = b.limited ∧ b'.cells = cs := by
  obtain ⟨a', b', run, keyed', kind, alone'⟩ := run_alone keyed p
  rw [alone'] at alone
  obtain ⟨rfl, left⟩ := Prod.mk.inj alone
  exact ⟨b', run, keyed', kind, left⟩

end MetricRegistry
