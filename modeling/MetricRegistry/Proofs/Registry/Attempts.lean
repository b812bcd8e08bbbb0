import Mathlib.Order.Bounds.Basic
import MetricRegistry.Proofs.Outcome
import MetricRegistry.Registry.Retry

/-!
# How often an attempt is made

An attempt is made by calling an operation, which may change a state and give something else each
time. `callFrom` is what its calls give one after the other, and `counted` the same operation with a
count of its calls. `Retryer.run_exact` says which of the calls is the last and that what it gives
is what the retryer gives; that is `loop_eq_callFrom`, by induction on the attempts that are left.
-/

namespace MetricRegistry

variable {σ α β : Type}

/-- What each call of an operation gives, from the first on, and the state that it leaves. -/
def callFrom (op : StateM σ β) (s : σ) : ℕ → β × σ
  | 0 => op.run s
  | n + 1 => op.run (callFrom op s n).2

/-- An operation that counts its calls. -/
def counted (op : StateM σ β) : StateM (σ × ℕ) β := fun state =>
  ((op.run state.1).1, (op.run state.1).2, state.2 + 1)

/-- A result that is a conflict. -/
def Lost (r : Except RegistryError α) : Prop :=
  ∃ org expected, r = .error (.conflict org expected)

/-- The later calls start where the first ends. -/
lemma callFrom_succ (op : StateM σ β) (s : σ) (n : ℕ) :
    callFrom op s (n + 1) = callFrom op (op.run s).2 n := by
  induction n with
  | zero => rfl
  | succ n ih => rw [callFrom, ih, callFrom]

/-- Counting the calls changes neither what they do nor what they answer. -/
lemma callFrom_counted (op : StateM σ β) (s : σ) (c n : ℕ) :
    callFrom (counted op) (s, c) n = ((callFrom op s n).1, (callFrom op s n).2, c + n + 1) := by
  induction n with
  | zero => rfl
  | succ n ih =>
    rw [callFrom, ih, callFrom]
    rfl

/-- An attempt is lost if it ends in a conflict. -/
lemma lost_error {e : RegistryError} :
    Lost (.error e : Except RegistryError α) ↔ e.isConflict = true := by
  constructor
  · rintro ⟨org, expected, eq⟩
    cases eq
    rfl
  · intro conflict
    cases e with
    | conflict org expected => exact ⟨org, expected, rfl⟩
    | _ => cases conflict

namespace Retryer

variable {op : StateM σ (Except RegistryError α)} {s s' : σ} {r : Except RegistryError α}

/-- The calls after which no more are made: the last that there may be, and those that are not lost.
They are numbered from zero. -/
def stops (attempts : ℕ) (op : StateM σ (Except RegistryError α)) (s : σ) : Set ℕ :=
  {k | k + 1 = attempts ∨ ¬ Lost (callFrom op s k).1}

/-- An attempt that is not lost ends the loop. -/
lemma loop_final (first : op.run s = (r, s')) (final : ¬ Lost r) (n : ℕ) (last : RegistryError) :
    (loop op (n + 1) last).run s = (r, s') := by
  rw [loop, StateM.run_bind_of_run first]
  cases r with
  | ok a => rfl
  | error e =>
    rw [lost_error] at final
    simp only [final]
    rfl

/-- An attempt that is lost leaves the rest of the loop to run. -/
lemma loop_lost {e : RegistryError} (first : op.run s = (.error e, s'))
    (conflict : e.isConflict = true) (n : ℕ) (last : RegistryError) :
    (loop op (n + 1) last).run s = (loop op n e).run s' := by
  rw [loop, StateM.run_bind_of_run first]
  simp only [conflict, if_true]

/-- After a call that is lost the next ones decide. -/
lemma isLeast_stops_succ (first : op.run s = (r, s')) (lost : Lost r) {n k : ℕ}
    (least : IsLeast (stops (n + 1) op s') k) : IsLeast (stops (n + 2) op s) (k + 1) := by
  have later (j : ℕ) : callFrom op s (j + 1) = callFrom op s' j := by
    rw [callFrom_succ, first]
  refine ⟨?_, fun j stop => ?_⟩
  · rcases least.1 with last | final
    · exact .inl (by omega)
    · exact .inr (by rwa [later])
  · cases j with
    | zero =>
      rcases stop with last | final
      · omega
      · rw [callFrom, first] at final
        exact absurd lost final
    | succ j =>
      refine Nat.succ_le_succ (least.2 ?_)
      rcases stop with last | final
      · exact .inl (by omega)
      · exact .inr (by rwa [later] at final)

/-- What attempts give is what the first of their calls gives after which no more are made. -/
lemma loop_eq_callFrom (op : StateM σ (Except RegistryError α)) (s : σ) (n : ℕ)
    (last : RegistryError) :
    ∃ k, IsLeast (stops (n + 1) op s) k ∧ (loop op (n + 1) last).run s = callFrom op s k := by
  induction n generalizing s last with
  | zero =>
    refine ⟨0, ⟨.inl rfl, fun k _ => Nat.zero_le k⟩, ?_⟩
    rw [callFrom]
    obtain ⟨r, s', first⟩ : ∃ r s', op.run s = (r, s') := ⟨_, _, rfl⟩
    by_cases lost : Lost r
    · -- the only call that there is: its conflict is what is left
      obtain ⟨org, expected, rfl⟩ := lost
      rw [loop_lost first rfl, first]
      rfl
    · rw [loop_final first lost, first]
  | succ n ih =>
    obtain ⟨r, s', first⟩ : ∃ r s', op.run s = (r, s') := ⟨_, _, rfl⟩
    by_cases lost : Lost r
    · obtain ⟨org, expected, rfl⟩ := lost
      obtain ⟨k, least, run⟩ := ih s' (.conflict org expected)
      refine ⟨k + 1, isLeast_stops_succ first ⟨org, expected, rfl⟩ least, ?_⟩
      rw [loop_lost first rfl, run, callFrom_succ, first]
    · refine ⟨0, ⟨.inr (by rwa [callFrom, first]), fun k _ => Nat.zero_le k⟩, ?_⟩
      rw [loop_final first lost, callFrom, first]

/-- A retryer calls an operation until the first call that is not lost to a conflict, and as often
as it has attempts if there is none among so many. What it gives is what the last of these calls
gives, be it a result, another error or a conflict, and it leaves the state that this call leaves.
The error that the attempts start from is never given: any other could stand in its place. -/
theorem run_exact (r : Retryer) (op : StateM σ (Except RegistryError α)) (s : σ) :
    ∃ k, IsLeast {k | k + 1 = r.attempts ∨ ¬ Lost (callFrom op s k).1} k
      ∧ (r.run op).run s = callFrom op s k
      ∧ (r.run (counted op)).run (s, 0) = ((callFrom op s k).1, (callFrom op s k).2, k + 1)
      ∧ ∀ start, loop op r.attempts start = r.run op := by
  obtain ⟨n, attempts⟩ : ∃ n, r.attempts = n + 1 :=
    ⟨r.attempts - 1, (Nat.sub_add_cancel r.attempts_pos).symm⟩
  rw [run, run, attempts]
  obtain ⟨k, least, plain⟩ := loop_eq_callFrom op s n (.configuration "retry loop made no attempts")
  obtain ⟨k', least', count⟩ :=
    loop_eq_callFrom (counted op) (s, 0) n (.configuration "retry loop made no attempts")
  -- counting changes no result, so that it stops at the same call
  have same : stops (n + 1) (counted op) (s, 0) = stops (n + 1) op s := by
    simp only [stops, callFrom_counted]
  rw [same] at least'
  obtain rfl := least.unique least'
  rw [callFrom_counted, Nat.zero_add] at count
  exact ⟨k, least, plain, count, fun _ => rfl⟩

end Retryer

end MetricRegistry
