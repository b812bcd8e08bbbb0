import MetricRegistry.Error

/-!
# Trying again

A `Retryer` makes an attempt over and over as long as it ends in a conflict, up to a bound of at
least one.  Whatever else an attempt ends in is final.
-/

namespace MetricRegistry

/-- How often an attempt is made. -/
structure Retryer where
  /-- The number of attempts, the first included. -/
  attempts : Nat
  /-- The pause before another attempt, in milliseconds. -/
  backoffMillis : Nat
  attempts_pos : 0 < attempts
  deriving DecidableEq, Repr

namespace Retryer

/-- The number of attempts where none is given. -/
def defaultAttempts : Nat := 3

/-- The retryer with a bound, which must not be zero. -/
def ofAttempts (attempts backoffMillis : Nat) : Except RegistryError Retryer :=
  if h : 0 < attempts then .ok ⟨attempts, backoffMillis, h⟩
  else .error (.configuration "retries must be at least 1")

/-- Makes an attempt up to a number of times; `last` is the conflict that came before. -/
def loop {m : Type → Type} [Monad m] {α : Type} (attempt : m (Except RegistryError α)) :
    Nat → RegistryError → m (Except RegistryError α)
  | 0, last => pure (.error last)
  | n + 1, _ => do
    match ← attempt with
    | .ok a => return .ok a
    | .error e => if e.isConflict then loop attempt n e else return .error e

/-- Makes an attempt until it ends in anything but a conflict, or the bound is reached; then the
last conflict stands. -/
def run {m : Type → Type} [Monad m] {α : Type} (r : Retryer)
    (attempt : m (Except RegistryError α)) : m (Except RegistryError α) :=
  loop attempt r.attempts (.configuration "retry loop made no attempts")

end Retryer

end MetricRegistry
