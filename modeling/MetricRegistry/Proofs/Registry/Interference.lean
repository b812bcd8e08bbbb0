import MetricRegistry.Proofs.Registry.Interleaving

/-!
# Programs among rivals

While a program runs, others write to the same store, and its own accesses may fail without
reaching it. An `Event` is one of these or an access of the program, and `Program.among` what comes
of a program and its store by a list of them; `Backing.others` is what the store would be without
the program. Two stores that hold the same are `Alike`, and stay so through the same events.
`Program.among_cases` takes a run apart at the first event that moves the program.
-/

namespace MetricRegistry

/-- What happens next while a program runs. -/
inductive Event where
  /-- The program makes its next access. -/
  | own
  /-- Its next access fails, and does not reach the store. -/
  | fault (e : RegistryError)
  /-- Somebody else writes. -/
  | rival (key : String) (document : List UInt8) (expected : Option Version)
  deriving DecidableEq, Repr

/-- What somebody else does. -/
def Event.IsRival : Event → Prop
  | .rival _ _ _ => True
  | _ => False

/-! ## Runs -/

namespace Backing

/-- A store after an event that the program has no part in. -/
def other (b : Backing) : Event → Backing
  | .rival key document expected => ((store.write key document expected).run b).2
  | _ => b

/-- A store after what others did. -/
def others (b : Backing) (es : List Event) : Backing :=
  es.foldl other b

end Backing

namespace Program

variable {α β : Type}

/-- What a program gives, if it is done. -/
def result? : Program α → Option α
  | .done a => some a
  | _ => none

/-- A program after an access that failed. -/
def fail (e : RegistryError) : Program α → Program α
  | .done a => .done a
  | .read _ resume => resume (.error e)
  | .write _ _ _ resume => resume (.error e)

/-- A program and its store after an event. -/
def after (w : Program α × Backing) : Event → Program α × Backing
  | .own => w.1.access w.2
  | .fault e => (w.1.fail e, w.2)
  | .rival key document expected => (w.1, w.2.other (.rival key document expected))

/-- A program and its store after several events. -/
def among (p : Program α) (b : Backing) (es : List Event) : Program α × Backing :=
  es.foldl after (p, b)

/-- A read resumes with what the cells hold and changes nothing. -/
lemma access_read (key : String) (resume : Except RegistryError (Option Stored) → Program α)
    (b : Backing) : (read key resume).access b = (resume (b.cells.read key), b) := by
  rw [access, Backing.run_read_cells]

/-- A write resumes with what the store says and leaves what a rival's write would. -/
lemma access_write (key : String) (document : List UInt8) (expected : Option Version)
    (resume : Except RegistryError Outcome → Program α) (b : Backing) :
    (write key document expected resume).access b
      = (resume ((Backing.store.write key document expected).run b).1,
        b.other (.rival key document expected)) :=
  rfl

variable {p : Program α} {b : Backing}

/-- The first event happens first. -/
lemma among_cons (p : Program α) (b : Backing) (e : Event) (es : List Event) :
    p.among b (e :: es) = (after (p, b) e).1.among (after (p, b) e).2 es :=
  rfl

/-- Events in a row happen one after the other. -/
lemma among_append (p : Program α) (b : Backing) (es fs : List Event) :
    p.among b (es ++ fs) = (p.among b es).1.among (p.among b es).2 fs :=
  List.foldl_append

/-- A rival moves the store and leaves the program where it is. -/
lemma after_rival {e : Event} (rival : e.IsRival) (w : Program α × Backing) :
    after w e = (w.1, w.2.other e) := by
  cases e with
  | rival => rfl
  | own => cases rival
  | fault => cases rival

/-- While others write a program waits. -/
lemma among_rivals {es : List Event} (rivals : ∀ e ∈ es, e.IsRival) (p : Program α) (b : Backing) :
    p.among b es = (p, b.others es) := by
  induction es generalizing b with
  | nil => rfl
  | cons e es ih =>
    obtain ⟨rival, rest⟩ := List.forall_mem_cons.mp rivals
    rw [among_cons, after_rival rival]
    exact ih rest _

/-- A program that is done leaves its store to the others. -/
lemma among_done (a : α) (b : Backing) (es : List Event) :
    (done a).among b es = (done a, b.others es) := by
  induction es generalizing b with
  | nil => rfl
  | cons e es ih => cases e <;> exact ih _

/-- A run that ends was over from the start, or has a first event that moves the program. -/
lemma among_cases {es : List Event} {a : α} (ended : (p.among b es).1.result? = some a) :
    p = .done a ∨ ∃ before e rest, es = before ++ e :: rest ∧ (∀ x ∈ before, x.IsRival)
      ∧ ¬ e.IsRival ∧ p.among b es = (after (p, b.others before) e).1.among
        (after (p, b.others before) e).2 rest := by
  induction es generalizing b with
  | nil =>
    left
    cases p with
    | done a' => exact congrArg done (Option.some.inj ended)
    | read => cases ended
    | write => cases ended
  | cons e es ih =>
    -- rivals go before the first event that moves the program
    by_cases rival : e.IsRival
    · have step : p.among b (e :: es) = p.among (b.other e) es := by
        rw [among_cons, after_rival rival]
      rw [step] at ended ⊢
      refine (ih ended).imp_right ?_
      rintro ⟨before, e', rest, rfl, rivals, own, run⟩
      exact ⟨e :: before, e', rest, rfl, List.forall_mem_cons.mpr ⟨rival, rivals⟩, own, run⟩
    · exact .inr ⟨[], e, es, rfl, by simp, rival, rfl⟩

end Program

/-! ## Stores that hold the same -/

/-- Stores of one kind that hold the same. -/
structure Backing.Alike (b c : Backing) : Prop where
  keyed : b.Keyed
  keyed' : c.Keyed
  limited : b.limited = c.limited
  cells : b.cells = c.cells

namespace Backing

variable {b c : Backing}

/-- A backing with unique keys is like itself. -/
lemma Alike.refl (keyed : b.Keyed) : b.Alike b :=
  ⟨keyed, keyed, rfl, rfl⟩

/-- Stores that hold the same give the same reply to a write and hold the same after it, and what
they held before unless it took place. -/
lemma Alike.run_write (alike : b.Alike c) (key : String) (document : List UInt8)
    (expected : Option Version) :
    ∃ r b' c', (store.write key document expected).run b = (r, b')
      ∧ (store.write key document expected).run c = (r, c') ∧ b'.Alike c'
      ∧ ((∀ version, r ≠ .ok (.committed version)) → b'.Alike c)
      ∧ ∀ version, r = .ok (.committed version) → version = nextVersion expected := by
  obtain ⟨keyed, keyed', limited, cells⟩ := alike
  obtain ⟨r, b', run, after, kind, swapped⟩ := run_write_cells keyed key document expected
  obtain ⟨r', c', run', after', kind', swapped'⟩ := run_write_cells keyed' key document expected
  rw [limited, cells] at swapped
  obtain ⟨rfl, same⟩ := Prod.mk.inj (swapped.symm.trans swapped')
  have swap := Cells.write_swap c.cells c.limited key document expected
  rw [swapped'] at swap
  refine ⟨r, b', c', run, run', ⟨after, after', kind.trans (limited.trans kind'.symm), same⟩,
    fun lost => ⟨after, keyed', kind.trans limited, same.trans ?_⟩, ?_⟩
  · generalize c'.cells = left at swap
    cases swap with
    | committed => exact absurd rfl (lost _)
    | conflict => rfl
    | unreadable => rfl
    | tooLarge => rfl
  · rintro version rfl
    generalize c'.cells = left at swap
    cases swap
    rfl

/-- One event keeps two backings alike. -/
lemma Alike.other (alike : b.Alike c) (e : Event) : (b.other e).Alike (c.other e) := by
  cases e with
  | own => exact alike
  | fault => exact alike
  | rival key document expected =>
    obtain ⟨r, b', c', run, run', after, -, -⟩ := alike.run_write key document expected
    rw [Backing.other, Backing.other, run, run']
    exact after

/-- Any events keep two backings alike. -/
lemma Alike.others (alike : b.Alike c) (es : List Event) : (b.others es).Alike (c.others es) := by
  induction es generalizing b c with
  | nil => exact alike
  | cons e es ih => exact ih (alike.other e)

end Backing

end MetricRegistry
