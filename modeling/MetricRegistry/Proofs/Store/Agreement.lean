import MetricRegistry.Proofs.Store.View

/-!
# Stores that give the same answers

A caller makes calls of a store, one after the other. `Access.ofCells` is the answer to a call by
what the store holds, and `Access.run_ask` says that either kind of store gives it. Two stores that
hold the same give the same answers (`answers_eq`) as long as expected versions leave room for the
next one in a table's column. `stores_agree` says what follows for a table that starts without rows.
-/

namespace MetricRegistry

/-- A call of a store. -/
inductive Access where
  | read (key : String)
  | write (key : String) (document : List UInt8) (expected : Option Version)
  deriving DecidableEq, Repr

/-- What a store answers to a read or to a write. -/
abbrev Answer := Except RegistryError (Option Stored ⊕ Outcome)

namespace Access

/-- Makes a call. -/
def ask : Access → StateM Backing Answer
  | .read key => do return (← Backing.store.read key).map .inl
  | .write key document expected => do
    return (← Backing.store.write key document expected).map .inr

/-- Makes calls one after the other. -/
def answers (accesses : List Access) : StateM Backing (List Answer) :=
  accesses.mapM ask

/-- The version after the expected one fits into 63 bits. -/
def Fits : Access → Prop
  | .read _ => True
  | .write _ _ expected => ∀ current : ℕ, expected = some current → current ≤ UInt64.size / 2 - 2

/-- The answer by what is held, and what is held then. -/
def ofCells (limited : Bool) (cs : Cells) : Access → Answer × Cells
  | .read key => ((cs.read key).map .inl, cs)
  | .write key document expected =>
    let (r, cs') := cs.write limited key document expected
    (r.map .inr, cs')

variable {b b' : Backing} {cs : Cells} {a : Access}

/-- A backing answers an access as its cells do, and goes on as they do. -/
lemma run_ask (keyed : b.Keyed) (a : Access) :
    ∃ r b', a.ask.run b = (r, b') ∧ b'.Keyed ∧ b'.limited = b.limited
      ∧ a.ofCells b.limited b.cells = (r, b'.cells) := by
  cases a with
  | read key =>
    refine ⟨_, b, ?_, keyed, rfl, rfl⟩
    rw [ask, StateM.run_bind_of_run (Backing.run_read_cells b key)]
    rfl
  | write key document expected =>
    obtain ⟨r, b', run, keyed', kind, swapped⟩ :=
      Backing.run_write_cells keyed key document expected
    refine ⟨r.map .inr, b', ?_, keyed', kind, ?_⟩
    · rw [ask, StateM.run_bind_of_run run]
      rfl
    · simp only [ofCells, swapped]

/-- Where the next version fits it does not matter whether versions are limited. -/
lemma Fits.ofCells_eq (fits : a.Fits) (limited limited' : Bool) :
    a.ofCells limited cs = a.ofCells limited' cs := by
  cases a with
  | read key => rfl
  | write key document expected =>
    have small : ¬ UInt64.size / 2 ≤ nextVersion expected := by
      cases expected with
      | none => decide
      | some current =>
        have bound := fits current rfl
        simp only [nextVersion, UInt64.size] at bound ⊢
        omega
    simp only [ofCells, Cells.write_eq_of_fits (Nat.lt_of_not_le small) limited limited']

/-- What can be read stays so, and an error says that a version is too large. -/
lemma ofCells_readable (readable : cs.Readable) (limited : Bool) (a : Access) :
    (a.ofCells limited cs).2.Readable ∧ ∀ e, (a.ofCells limited cs).1 = .error e →
      limited = true ∧ ∃ version, e = .corruption (.versionTooLarge version) := by
  cases a with
  | read key =>
    refine ⟨readable, fun e failed => ?_⟩
    simp only [ofCells, readable.read_eq] at failed
    cases failed
  | write key document expected =>
    have swap := Cells.write_swap cs limited key document expected
    simp only [ofCells]
    generalize cs.write limited key document expected = result at swap
    cases swap with
    | committed => exact ⟨readable.update _, fun _ failed => by cases failed⟩
    | conflict => exact ⟨readable, fun _ failed => by cases failed⟩
    | unreadable refused => rw [readable.read_eq key] at refused; cases refused
    | tooLarge limit => exact ⟨readable, fun _ failed => by cases failed; exact ⟨limit, _, rfl⟩⟩

/-- The first access of a list is answered first. -/
lemma run_answers_cons {r : Answer} (first : a.ask.run b = (r, b')) (as : List Access) :
    (answers (a :: as)).run b
      = (r :: ((answers as).run b').1, ((answers as).run b').2) := by
  rw [answers, List.mapM_cons, StateM.run_bind_of_run first, StateT.run_bind]
  rfl

/-- Stores that hold the same give the same answers. -/
lemma answers_eq {as : List Access} (fits : ∀ a ∈ as, a.Fits) (keyed : b.Keyed) (keyed' : b'.Keyed)
    (same : b.cells = b'.cells) : ((answers as).run b).1 = ((answers as).run b').1 := by
  induction as generalizing b b' with
  | nil => rfl
  | cons a as ih =>
    obtain ⟨first, rest⟩ := List.forall_mem_cons.mp fits
    obtain ⟨r, c, run, keyedAfter, -, given⟩ := run_ask keyed a
    obtain ⟨r', c', run', keyedAfter', -, given'⟩ := run_ask keyed' a
    rw [same, first.ofCells_eq b.limited b'.limited] at given
    obtain ⟨rfl, sameAfter⟩ := Prod.mk.inj (given.symm.trans given')
    rw [run_answers_cons run, run_answers_cons run', ih rest keyedAfter keyedAfter' sameAfter]

/-- No answer of a store that can be read blames what is stored. -/
lemma answers_readable {as : List Access} (keyed : b.Keyed) (readable : b.cells.Readable) :
    ∀ e, .error e ∈ ((answers as).run b).1 →
      b.limited = true ∧ ∃ version, e = .corruption (.versionTooLarge version) := by
  induction as generalizing b with
  | nil => exact fun e failed => by cases failed
  | cons a as ih =>
    obtain ⟨r, c, run, keyed', kind, given⟩ := run_ask keyed a
    have kept := ofCells_readable readable b.limited a
    rw [given] at kept
    intro e failed
    rw [run_answers_cons run] at failed
    rcases List.mem_cons.mp failed with rfl | failed
    · exact kept.2 e rfl
    · exact kind ▸ ih keyed' kept.1 e failed

/-- A table refuses a version that does not fit, whatever it holds, and stays as it is. -/
lemma run_write_large {name key : String} {db : Database} {document : List UInt8}
    {expected : Option Version} (large : UInt64.size / 2 ≤ nextVersion expected) :
    (Backing.store.write key document expected).run (.table name db)
      = (.error (.corruption (.versionTooLarge (nextVersion expected))), .table name db) := by
  have refused : (db.table name).write key document expected
      = .error (.corruption (.versionTooLarge (nextVersion expected))) := by
    simp [Table.write, Table.change, encodeVersion, Nat.not_lt.mpr large, bind, Except.bind]
  simp [Backing.store, refused]
  rfl

/-- A table without rows answers as memory without documents does, and never fails, as long as
expected versions leave room for the next one. A write over a later version is refused and changes
nothing, and no answer ever tells of a negative version. -/
theorem stores_agree {name : String} {db : Database} (empty : db.table name = [])
    (as : List Access) :
    ((∀ a ∈ as, a.Fits) →
        ((answers as).run (.table name db)).1 = ((answers as).run (.memory [])).1
          ∧ ∀ answer ∈ ((answers as).run (.table name db)).1, ∃ given, answer = .ok given)
      ∧ (∀ (db' : Database) (key : String) (document : List UInt8) (current : ℕ),
        UInt64.size / 2 - 1 ≤ current →
        (Backing.store.write key document (some current)).run (.table name db')
          = (.error (.corruption (.versionTooLarge (current + 1))), .table name db'))
      ∧ ∀ stored, .error (.corruption (.negativeVersion stored))
        ∉ ((answers as).run (.table name db)).1 := by
  obtain ⟨keyed, none⟩ := Backing.IsEmpty.cells_eq (b := .table name db) empty
  obtain ⟨keyed', none'⟩ := Backing.IsEmpty.cells_eq (b := .memory []) rfl
  have readable : (Backing.table name db).cells.Readable := none ▸ Cells.readable_empty
  have readable' : (Backing.memory []).cells.Readable := none' ▸ Cells.readable_empty
  refine ⟨fun fits => ?_, fun db' key document current large => run_write_large ?_, ?_⟩
  · have same := answers_eq fits keyed keyed' (none.trans none'.symm)
    refine ⟨same, fun answer given => ?_⟩
    rw [same] at given
    cases answer with
    | ok x => exact ⟨x, rfl⟩
    | error e =>
      -- versions in memory are not limited
      obtain ⟨limited, -⟩ := answers_readable keyed' readable' e given
      cases limited
  · simp only [nextVersion, UInt64.size] at large ⊢
    omega
  · intro stored blamed
    obtain ⟨-, version, other⟩ := answers_readable keyed readable _ blamed
    cases other

/-- A document is created, changed, and changed again by somebody who has not seen that. -/
theorem stores_agree_late :
    ((answers [.write "acme" [1] none, .write "acme" [2] (some 0), .write "acme" [3] (some 0),
        .read "acme"]).run (.table "schema_registry" [("schema_registry", [])])).1
      = [.ok (.inr (.committed 0)), .ok (.inr (.committed 1)), .ok (.inr (.conflict (some 1))),
        .ok (.inl (some ⟨[2], 1⟩))] := by
  have empty : Database.table [("schema_registry", [])] "schema_registry" = [] := by
    decide +kernel
  have agree := stores_agree empty [.write "acme" [1] none, .write "acme" [2] (some 0),
    .write "acme" [3] (some 0), .read "acme"]
  rw [(agree.1 (by simp [Fits])).1]
  decide +kernel

end Access

end MetricRegistry
