import MetricRegistry.Proofs.Registry.Alone
import MetricRegistry.Proofs.Registry.Atomicity

/-!
# Operations that nobody disturbs

An honest program that runs alone changes nothing if it fails (`Honest.alone_error`). It writes over
the version that it has just read, so all versions are `Below` one more than before
(`Honest.alone_below`), and as no version ever sinks (`Program.alone_rises`), it makes no difference
whether a store limits them where those that are held in the end fit (`Honest.alone_limited`).
-/

namespace MetricRegistry

/-- All versions are below a bound. -/
def Cells.Below (cs : Cells) (bound : ℕ) : Prop :=
  ∀ key c, cs key = some c → c.version < bound

/-- Versions below a bound are below any higher one. -/
lemma Cells.Below.mono {cs : Cells} {bound bound' : ℕ} (below : cs.Below bound)
    (le : bound ≤ bound') : cs.Below bound' := by
  intro key c held
  have lt := below key c held
  omega

/-- A document that is stored over a lower version keeps the versions low. -/
lemma Cells.Below.update {cs : Cells} {bound : ℕ} (below : cs.Below bound) (key : String)
    {stored : Stored} (low : stored.version ≤ bound) :
    Cells.Below (Function.update cs key (some stored.cell)) (bound + 1) := by
  intro other c held
  by_cases here : other = key
  · subst here
    rw [Function.update_self] at held
    obtain rfl := Option.some.inj held
    exact Int.ofNat_lt.mpr (Nat.lt_succ_of_le low)
  · rw [Function.update_of_ne here] at held
    exact below.mono (Nat.le_succ bound) other c held

/-- No version sinks: under each key something is held still, and in no earlier version. -/
def Cells.Rises (cs ds : Cells) : Prop :=
  ∀ key c, cs key = some c → ∃ d, ds key = some d ∧ c.version ≤ d.version

namespace Cells.Rises

variable {cs ds es : Cells}

/-- Versions that stay where they are rise. -/
lemma refl (cs : Cells) : cs.Rises cs :=
  fun _ c held => ⟨c, held, Int.le_refl _⟩

/-- Versions that rise twice rise. -/
lemma trans (first : cs.Rises ds) (second : ds.Rises es) : cs.Rises es := by
  intro key c held
  obtain ⟨d, held', le⟩ := first key c held
  obtain ⟨e, held'', le'⟩ := second key d held'
  exact ⟨e, held'', Int.le_trans le le'⟩

/-- What rises to versions below a bound was below it. -/
lemma below {bound : ℕ} (rises : cs.Rises ds) (below : ds.Below bound) : cs.Below bound := by
  intro key c held
  obtain ⟨d, held', le⟩ := rises key c held
  have lt := below key d held'
  omega

end Cells.Rises

/-- A write never lowers a version. -/
lemma Cells.write_rises (cs : Cells) (limited : Bool) (key : String) (document : List UInt8)
    (expected : Option Version) : cs.Rises (cs.write limited key document expected).2 := by
  have swap := Cells.write_swap cs limited key document expected
  generalize cs.write limited key document expected = result at swap
  cases swap with
  | @committed actual _ readable =>
    intro other c held
    by_cases here : other = key
    · subst here
      cases actual with
      | none =>
        rw [Cells.read_eq_ok_none.mp readable] at held
        cases held
      | some stored =>
        rw [Cells.read_eq_ok_some.mp readable] at held
        obtain rfl := Option.some.inj held
        exact ⟨_, Function.update_self .., Int.ofNat_le.mpr (Nat.le_succ stored.version)⟩
    · exact ⟨c, (Function.update_of_ne here ..).trans held, Int.le_refl _⟩
  | conflict => exact .refl cs
  | unreadable => exact .refl cs
  | tooLarge => exact .refl cs

/-- A program never lowers a version. -/
lemma Program.alone_rises {α : Type} (p : Program α) (limited : Bool) (cs : Cells) :
    cs.Rises (p.alone limited cs).2 := by
  induction p generalizing cs with
  | done a => exact .refl cs
  | read key resume ih => exact ih (cs.read key) cs
  | write key document expected resume ih =>
    exact (cs.write_rises limited key document expected).trans (ih _ _)

section Honest

variable {α : Type} {reported : α → Option (String × Version)}
  {last : Option (String × Version)} {p : Program (Except RegistryError α)}
  {limited : Bool} {cs : Cells}

/-- An honest program that fails leaves the cells as they were. -/
lemma Honest.alone_error (honest : Honest reported last p) {e : RegistryError} {ds : Cells}
    (failed : p.alone limited cs = (.error e, ds)) : ds = cs := by
  induction honest generalizing cs with
  | done _ => exact (Prod.mk.inj failed).2.symm
  | @read last key resume _ _ _ ihFailed ihMissing ihFound =>
    rw [Program.alone_read] at failed
    cases reply : cs.read key with
    | error e' => exact ihFailed e' (reply ▸ failed)
    | ok stored =>
      cases stored with
      | none => exact ihMissing (reply ▸ failed)
      | some stored => exact ihFound stored (reply ▸ failed)
  | @write last key document expected resume _ committed _ _ ihConflict ihFailed =>
    rw [Program.alone_write] at failed
    have swap := Cells.write_swap cs limited key document expected
    generalize cs.write limited key document expected = result at swap failed
    cases swap with
    | committed _ _ =>
      obtain ⟨a, ends, -⟩ := committed _
      rw [ends] at failed
      cases failed
    | conflict _ _ => exact ihConflict _ failed
    | unreadable _ => exact ihFailed _ failed
    | tooLarge _ _ => exact ihFailed _ failed

/-- An honest program raises the highest version by one at most. -/
lemma Honest.alone_below (honest : Honest reported last p) {bound : ℕ} (below : cs.Below bound)
    (found : ∀ key current, last = some (key, current) → current < bound) :
    (p.alone limited cs).2.Below (bound + 1) := by
  induction honest generalizing cs with
  | done _ => exact below.mono (Nat.le_succ bound)
  | @read last key resume _ _ _ ihFailed ihMissing ihFound =>
    rw [Program.alone_read]
    cases reply : cs.read key with
    | error e => exact ihFailed e below nofun
    | ok stored =>
      cases stored with
      | none => exact ihMissing below nofun
      | some stored =>
        have held := Cells.read_eq_ok_some.mp reply
        refine ihFound stored below fun key' current eq => ?_
        cases eq
        exact Int.ofNat_lt.mp (below key _ held)
  | @write last key document expected resume follows committed _ _ ihConflict ihFailed =>
    have next : nextVersion expected ≤ bound := by
      cases expected with
      | none => exact Nat.zero_le bound
      | some current => exact found key current (follows current rfl)
    rw [Program.alone_write]
    have swap := Cells.write_swap cs limited key document expected
    generalize cs.write limited key document expected = result at swap
    cases swap with
    | committed _ _ =>
      obtain ⟨a, ends, -⟩ := committed (nextVersion _)
      rw [ends]
      exact below.update key next
    | conflict _ _ => exact ihConflict _ below nofun
    | unreadable _ => exact ihFailed _ below nofun
    | tooLarge _ _ => exact ihFailed _ below nofun

/-- Where the versions fit that are held in the end, no limit of theirs has been met. -/
lemma Honest.alone_limited (honest : Honest reported last p)
    (fits : (p.alone false cs).2.Below (UInt64.size / 2))
    (found : ∀ key current, last = some (key, current) →
      ∃ document, cs.read key = .ok (some ⟨document, current⟩)) :
    p.alone true cs = p.alone false cs := by
  induction honest generalizing cs with
  | done _ => rfl
  | @read last key resume _ _ _ ihFailed ihMissing ihFound =>
    rw [Program.alone_read] at fits
    rw [Program.alone_read, Program.alone_read]
    cases reply : cs.read key with
    | error e => exact ihFailed e (reply ▸ fits) nofun
    | ok stored =>
      cases stored with
      | none => exact ihMissing (reply ▸ fits) nofun
      | some stored =>
        refine ihFound stored (reply ▸ fits) fun key' current eq => ?_
        cases eq
        exact ⟨stored.document, reply⟩
  | @write last key document expected resume follows committed _ _ ihConflict ihFailed =>
    have next : nextVersion expected < UInt64.size / 2 := by
      cases expected with
      | none => decide
      | some current =>
        -- what is written over what has just been read is held in the end
        obtain ⟨_, readable⟩ := found key current (follows current rfl)
        obtain ⟨a, ends, -⟩ := committed (nextVersion (some current))
        have written := Cells.write_of_read readable false document nofun
        rw [Option.map_some] at written
        rw [Program.alone_write, written, ends] at fits
        have lt := fits key _ (Function.update_self ..)
        exact Int.ofNat_lt.mp lt
    rw [Program.alone_write] at fits
    rw [Program.alone_write, Program.alone_write, Cells.write_eq_of_fits next true false document]
    have swap := Cells.write_swap cs false key document expected
    generalize cs.write false key document expected = result at swap fits
    cases swap with
    | committed _ _ =>
      obtain ⟨a, ends, -⟩ := committed (nextVersion _)
      rw [ends]
      rfl
    | conflict _ _ => exact ihConflict _ fits nofun
    | unreadable _ => exact ihFailed _ fits nofun
    | tooLarge limit _ => cases limit

end Honest

end MetricRegistry
