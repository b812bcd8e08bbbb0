import Mathlib.Data.List.Nodup
import Mathlib.Logic.Function.Basic
import MetricRegistry.Proofs.Outcome
import MetricRegistry.Store.Backing

/-!
# What a store holds

Documents in memory and documents in a table are cells under keys. `Backing.cells` is what either
kind of store holds, bytes for bytes and number for number; `Cells.read` is what a reader gets of
it, and `Cells.write` what a conditional write gives and leaves, which `Cells.write_swap` reads as
one of four endings. `Backing.run_read_cells` and `Backing.run_write_cells` say that a store does
just that, whatever it holds, where no two rows of a table have the same key. The kinds of store
differ in one thing alone: the versions of a table are limited.
-/

namespace MetricRegistry

/-- Some bytes and the number that is their version. -/
structure Cell where
  document : List UInt8
  version : Int
  deriving DecidableEq, Repr

/-- What is held under each key. -/
abbrev Cells := String → Option Cell

/-- A document as it is held. -/
def Stored.cell (s : Stored) : Cell :=
  ⟨s.document, s.version⟩

/-- A row without its key. -/
def Row.cell (row : Row) : Cell :=
  ⟨row.document, row.version⟩

/-! ## Reading and writing cells -/

namespace Cells

/-- What a reader gets. -/
def read (cs : Cells) (key : String) : Except RegistryError (Option Stored) :=
  match cs key with
  | none => .ok none
  | some c => do return some ⟨c.document, ← decodeVersion c.version⟩

/-- What a conditional write gives and leaves, where versions are limited or not. -/
def write (cs : Cells) (limited : Bool) (key : String) (document : List UInt8)
    (expected : Option Version) : Except RegistryError Outcome × Cells :=
  if limited ∧ UInt64.size / 2 ≤ nextVersion expected then
    (.error (.corruption (.versionTooLarge (nextVersion expected))), cs)
  else match cs.read key with
    | .error e => (.error e, cs)
    | .ok actual =>
      if actual.map Stored.version = expected then
        (.ok (.committed (nextVersion expected)),
          Function.update cs key (some (Stored.cell ⟨document, nextVersion expected⟩)))
      else (.ok (.conflict (actual.map Stored.version)), cs)

/-- The four endings of a conditional write. -/
inductive Swap (cs : Cells) (limited : Bool) (key : String) (document : List UInt8) :
    Option Version → Except RegistryError Outcome × Cells → Prop where
  | committed {actual} :
    (limited = true → nextVersion (actual.map Stored.version) < UInt64.size / 2) →
    cs.read key = .ok actual →
    Swap cs limited key document (actual.map Stored.version)
      (.ok (.committed (nextVersion (actual.map Stored.version))),
        Function.update cs key
          (some (Stored.cell ⟨document, nextVersion (actual.map Stored.version)⟩)))
  | conflict {actual expected} :
    cs.read key = .ok actual →
    actual.map Stored.version ≠ expected →
    Swap cs limited key document expected (.ok (.conflict (actual.map Stored.version)), cs)
  | unreadable {e expected} :
    cs.read key = .error e →
    Swap cs limited key document expected (.error e, cs)
  | tooLarge {expected} :
    limited = true →
    UInt64.size / 2 ≤ nextVersion expected →
    Swap cs limited key document expected
      (.error (.corruption (.versionTooLarge (nextVersion expected))), cs)

variable {cs : Cells} {key : String}

/-- A write to cells swaps a version for the next, or finds another. -/
lemma write_swap (cs : Cells) (limited : Bool) (key : String) (document : List UInt8)
    (expected : Option Version) :
    Swap cs limited key document expected (cs.write limited key document expected) := by
  unfold write
  split
  case isTrue large => exact .tooLarge large.1 large.2
  case isFalse fits =>
  split
  case h_1 e unreadable => exact .unreadable unreadable
  case h_2 actual readable =>
  split
  case isTrue same =>
    obtain rfl := same
    exact .committed (fun limit => Nat.lt_of_not_le fun large => fits ⟨limit, large⟩) readable
  case isFalse other => exact .conflict readable other

/-- Nothing is read where there is no cell. -/
lemma read_eq_ok_none : cs.read key = .ok none ↔ cs key = none := by
  unfold read
  cases cs key <;> simp

/-- What is read is the cell of what was stored. -/
lemma read_eq_ok_some {stored : Stored} :
    cs.read key = .ok (some stored) ↔ cs key = some stored.cell := by
  unfold read
  cases held : cs key with
  | none => simp
  | some c =>
    obtain ⟨document, version⟩ := c
    obtain ⟨document', version'⟩ := stored
    by_cases sign : 0 ≤ version
    · have same : version.toNat = version' ↔ version = version' := by omega
      simp [decodeVersion, sign, Stored.cell, bind, Except.bind, pure, Except.pure, same]
    · have ne : version ≠ version' := by omega
      simp [decodeVersion, sign, Stored.cell, bind, Except.bind, ne]

/-- A write over what is held succeeds where the next version fits. -/
lemma write_of_read {actual : Option Stored} (readable : cs.read key = .ok actual)
    (limited : Bool) (document : List UInt8)
    (fits : limited = true → nextVersion (actual.map Stored.version) < UInt64.size / 2) :
    cs.write limited key document (actual.map Stored.version)
      = (.ok (.committed (nextVersion (actual.map Stored.version))),
        Function.update cs key
          (some (Stored.cell ⟨document, nextVersion (actual.map Stored.version)⟩))) := by
  have small : ¬ (limited = true ∧ UInt64.size / 2 ≤ nextVersion (actual.map Stored.version)) :=
    fun large => Nat.not_le.mpr (fits large.1) large.2
  rw [write, if_neg small, readable]
  exact if_pos rfl

/-- A conditional write leaves what is held under other keys. -/
lemma write_of_ne {other : String} (ne : other ≠ key) (limited : Bool) (document : List UInt8)
    (expected : Option Version) : (cs.write limited key document expected).2 other = cs other := by
  have swap := write_swap cs limited key document expected
  generalize cs.write limited key document expected = result at swap
  cases swap with
  | committed => exact Function.update_of_ne ne _ _
  | conflict => rfl
  | unreadable => rfl
  | tooLarge => rfl

/-- A conditional write depends on what is held under its key and on nothing else. -/
lemma write_congr {ds : Cells} (same : cs key = ds key) (limited : Bool) (document : List UInt8)
    (expected : Option Version) :
    (cs.write limited key document expected).1 = (ds.write limited key document expected).1
      ∧ (cs.write limited key document expected).2 key
        = (ds.write limited key document expected).2 key := by
  have read : cs.read key = ds.read key := by
    rw [Cells.read, Cells.read, same]
  unfold write
  rw [read]
  split
  case isTrue => exact ⟨rfl, same⟩
  case isFalse =>
  split
  case h_1 => exact ⟨rfl, same⟩
  case h_2 =>
  split
  case isTrue => exact ⟨rfl, by simp⟩
  case isFalse => exact ⟨rfl, same⟩

/-- Where the next version fits it does not matter whether versions are limited. -/
lemma write_eq_of_fits {expected : Option Version} (fits : nextVersion expected < UInt64.size / 2)
    (limited limited' : Bool) (document : List UInt8) :
    cs.write limited key document expected = cs.write limited' key document expected := by
  have small := Nat.not_le.mpr fits
  simp only [write, small, and_false, if_false]

/-- A reader is refused a negative version, and nothing else. -/
lemma read_eq_error {e : RegistryError} : cs.read key = .error e
    ↔ ∃ c, cs key = some c ∧ c.version < 0 ∧ e = .corruption (.negativeVersion c.version) := by
  unfold read
  cases held : cs key with
  | none => simp
  | some c =>
    by_cases sign : 0 ≤ c.version
    · have not : ¬ c.version < 0 := by omega
      simp [decodeVersion, sign, not, bind, Except.bind, pure, Except.pure]
    · have negative : c.version < 0 := by omega
      simp [decodeVersion, sign, negative, bind, Except.bind, eq_comm]

end Cells

/-! ## Tables -/

namespace Table

/-- No two rows have the same key. -/
def Keyed (t : Table) : Prop :=
  (t.map Row.key).Nodup

/-- What a table holds. -/
def cells (t : Table) : Cells :=
  fun key => (t.select key).map Row.cell

variable {t : Table} {key : String} {row : Row}

/-- Without rows no key comes twice. -/
lemma keyed_nil : Keyed [] :=
  List.nodup_nil

/-- A version that fits is stored as it is. -/
lemma encodeVersion_of_lt {version : Version} (fits : version < UInt64.size / 2) :
    encodeVersion version = .ok version := by
  simp [encodeVersion, fits]

/-- A table reads what its cells read. -/
lemma read_eq (t : Table) (key : String) : t.read key = t.cells.read key := by
  unfold read Cells.read cells
  cases t.select key <;> rfl

/-- A row that is selected is there and has the key. -/
lemma mem_of_select (found : t.select key = some row) : row ∈ t ∧ row.key = key :=
  ⟨List.mem_of_find?_eq_some found, by simpa using List.find?_some found⟩

/-- A row of a table is selected by its key. -/
lemma Keyed.select_of_mem (keyed : t.Keyed) (mem : row ∈ t) : t.select row.key = some row := by
  cases found : t.select row.key with
  | none => exact absurd (List.find?_eq_none.mp found row mem) (by simp)
  | some other =>
    obtain ⟨otherMem, same⟩ := mem_of_select found
    rw [List.inj_on_of_nodup_map keyed otherMem mem same]

/-- A row that is selected stands alone with its key. -/
lemma Keyed.split_of_select (keyed : t.Keyed) (found : t.select key = some row) :
    ∃ before after, t = before ++ row :: after ∧ row.key = key
      ∧ (∀ r ∈ before, r.key ≠ key) ∧ ∀ r ∈ after, r.key ≠ key := by
  obtain ⟨mem, rfl⟩ := mem_of_select found
  obtain ⟨before, after, rfl⟩ := List.append_of_mem mem
  -- another row with the key would repeat it
  rw [Keyed, List.map_append, List.map_cons] at keyed
  obtain ⟨-, rest, apart⟩ := List.nodup_append'.mp keyed
  refine ⟨before, after, rfl, rfl, fun r rmem eq => ?_, fun r rmem eq => ?_⟩
  · exact apart (List.mem_map_of_mem rmem) (by simp [eq])
  · exact (List.nodup_cons.mp rest).1 (eq ▸ List.mem_map_of_mem rmem)

/-- Where the rows before one have other keys, the table holds that one under its key, and under
other keys what it holds with any row of that key in the place. -/
lemma cells_split {before after : List Row} {row' : Row} (same : row'.key = row.key)
    (others : ∀ r ∈ before, r.key ≠ row.key) :
    cells (before ++ row' :: after)
      = Function.update (cells (before ++ row :: after)) row.key (some row'.cell) := by
  funext key
  by_cases here : key = row.key
  · have none : before.find? (·.key == row.key) = none := by
      simpa using others
    simp [here, cells, select, List.find?_append, same, none]
  · have skip : (row.key == key) = false := by simpa using fun eq => here eq.symm
    simp [Function.update_of_ne here, cells, select, List.find?_append, same, skip]

/-- Where no row has the key and the version, an update changes nothing. -/
lemma updateWhere_absent {current version : Int} {document : List UInt8}
    (absent : ∀ r ∈ t, ¬ (r.key = key ∧ r.version = current)) :
    t.updateWhere key current document version = (0, t) := by
  have misses : ∀ r ∈ t, (r.key == key && r.version == current) = false := by
    intro r mem
    simpa using absent r mem
  rw [updateWhere, Prod.mk.injEq]
  refine ⟨List.countP_eq_zero.mpr fun r mem => by simp [misses r mem], ?_⟩
  rw [List.map_congr_left (g := id) fun r mem => by simp [misses r mem], List.map_id]

/-- An update acts on the rows of two parts apart. -/
lemma updateWhere_append (s t : Table) (key : String) (current version : Int)
    (document : List UInt8) :
    Table.updateWhere (s ++ t) key current document version
      = ((s.updateWhere key current document version).1
          + (t.updateWhere key current document version).1,
        (s.updateWhere key current document version).2
          ++ (t.updateWhere key current document version).2) := by
  simp only [updateWhere, List.countP_append, List.map_append]

/-- Where one row has the key and the version, an update changes that. -/
lemma updateWhere_split {before after : List Row} {version : Int} {document : List UInt8}
    (front : ∀ r ∈ before, r.key ≠ row.key) (back : ∀ r ∈ after, r.key ≠ row.key) :
    updateWhere (before ++ row :: after) row.key row.version document version
      = (1, before ++ ⟨row.key, version, document⟩ :: after) := by
  have here : updateWhere [row] row.key row.version document version
      = (1, [⟨row.key, version, document⟩]) := by
    simp [updateWhere]
  rw [← List.singleton_append, updateWhere_append, updateWhere_append, here,
    updateWhere_absent fun r mem same => front r mem same.1,
    updateWhere_absent fun r mem same => back r mem same.1]
  rfl

/-- A write over the version that the table holds replaces the document. -/
lemma Keyed.write_over (keyed : t.Keyed) {document : List UInt8} {stored : Stored}
    (held : t.cells key = some stored.cell) (fits : stored.version + 1 < UInt64.size / 2) :
    ∃ t', t.write key document (some stored.version) = .ok (.committed (stored.version + 1), t')
      ∧ t'.Keyed
      ∧ t'.cells
        = Function.update t.cells key (some (Stored.cell ⟨document, stored.version + 1⟩)) := by
  obtain ⟨row, found, same⟩ := Option.map_eq_some_iff.mp held
  -- the update reaches one row, as it stands between rows of other keys
  obtain ⟨before, after, rfl, rfl, front, back⟩ := keyed.split_of_select found
  have version : (stored.version : Int) = row.version := congrArg Cell.version same.symm
  refine ⟨before ++ ⟨row.key, (stored.version + 1 : Nat), document⟩ :: after, ?_, ?_, ?_⟩
  · simp only [write, change, nextVersion, encodeVersion_of_lt fits,
      encodeVersion_of_lt (Nat.lt_of_succ_lt fits), version, Except.bind, bind, pure, Except.pure,
      updateWhere_split front back, if_true]
  · rwa [Keyed, List.map_append, List.map_cons] at keyed ⊢
  · exact @cells_split row before after ⟨row.key, (stored.version + 1 : Nat), document⟩ rfl front

/-- A row is added for a key that has none. -/
lemma Keyed.write_new (keyed : t.Keyed) {document : List UInt8} (free : t.cells key = none) :
    ∃ t', t.write key document none = .ok (.committed 0, t') ∧ t'.Keyed
      ∧ t'.cells = Function.update t.cells key (some (Stored.cell ⟨document, 0⟩)) := by
  have missing : t.select key = none := Option.map_eq_none_iff.mp free
  have fits : 0 < UInt64.size / 2 := by decide
  refine ⟨t ++ [⟨key, (0 : Nat), document⟩], ?_, ?_, ?_⟩
  · simp [write, change, nextVersion, encodeVersion_of_lt fits, insertNew, missing, bind,
      Except.bind, pure, Except.pure]
  · rw [Keyed, List.map_append]
    refine List.nodup_append'.mpr ⟨keyed, by simp, fun k mem last => ?_⟩
    obtain ⟨r, rmem, rfl⟩ := List.mem_map.mp mem
    obtain rfl : r.key = key := by simpa using last
    exact absurd (keyed.select_of_mem rmem) (by simp [missing])
  · funext other
    by_cases here : other = key
    · have none : t.find? (·.key == key) = none := missing
      simp [here, cells, select, List.find?_append, none, Row.cell, Stored.cell]
    · have skip : (key == other) = false := by simpa using fun same => here same.symm
      simp [Function.update_of_ne here, cells, select, List.find?_append, skip]

/-- A statement that changed no row leaves the table to a second one, which looks for the version
that stood in the way. -/
lemma write_unchanged {document : List UInt8} {expected : Option Version}
    (unchanged : t.change key document expected = .ok (0, t)) :
    t.write key document expected = match t.cells.read key with
      | .ok actual => .ok (.conflict (actual.map Stored.version), t)
      | .error e => .error e := by
  simp only [write, unchanged, Cells.read, cells]
  cases found : t.select key with
  | none => simp [bind, Except.bind, pure, Except.pure, found]
  | some row =>
    simp only [bind, Except.bind, pure, Except.pure, found, Option.map_some, Row.cell]
    cases decodeVersion row.version <;> rfl

/-- A write over a version that the table does not hold changes no row. -/
lemma Keyed.change_unchanged (keyed : t.Keyed) {document : List UInt8} {expected : Option Version}
    (fits : nextVersion expected < UInt64.size / 2)
    (other : ∀ actual, t.cells.read key = .ok actual → actual.map Stored.version ≠ expected) :
    t.change key document expected = .ok (0, t) := by
  cases expected with
  | none =>
    have taken : (t.select key).isSome := by
      by_contra free
      rw [Option.not_isSome_iff_eq_none] at free
      exact other none (Cells.read_eq_ok_none.mpr (Option.map_eq_none_iff.mpr free)) rfl
    simp [change, encodeVersion_of_lt fits, insertNew, taken, bind, Except.bind, pure, Except.pure]
  | some current =>
    have absent : ∀ r ∈ t, ¬ (r.key = key ∧ r.version = (current : Int)) := by
      rintro r mem ⟨rfl, version⟩
      refine other (some ⟨r.document, current⟩) (Cells.read_eq_ok_some.mpr ?_) rfl
      simp [cells, keyed.select_of_mem mem, Row.cell, Stored.cell, version]
    simp [change, encodeVersion_of_lt fits, updateWhere_absent absent,
      encodeVersion_of_lt (Nat.lt_of_succ_lt fits), bind, Except.bind, pure, Except.pure]

/-- A conditional write of a table is one of what it holds. -/
lemma Keyed.write_eq (keyed : t.Keyed) (key : String) (document : List UInt8)
    (expected : Option Version) :
    (∃ outcome t', t.write key document expected = .ok (outcome, t') ∧ t'.Keyed
        ∧ t.cells.write true key document expected = (.ok outcome, t'.cells))
      ∨ ∃ e, t.write key document expected = .error e
        ∧ t.cells.write true key document expected = (.error e, t.cells) := by
  -- a version that does not fit is refused before the rows are looked at
  by_cases fits : nextVersion expected < UInt64.size / 2
  case neg =>
    refine .inr ⟨.corruption (.versionTooLarge (nextVersion expected)), ?_, ?_⟩
    · simp [write, change, encodeVersion, fits, bind, Except.bind]
    · simp [Cells.write, Nat.not_lt.mp fits]
  by_cases same : ∃ actual, t.cells.read key = .ok actual ∧ actual.map Stored.version = expected
  · obtain ⟨actual, readable, rfl⟩ := same
    left
    rw [Cells.write_of_read readable true document fun _ => fits]
    cases actual with
    | none =>
      obtain ⟨t', written, keyed', cells'⟩ := keyed.write_new (Cells.read_eq_ok_none.mp readable)
      exact ⟨_, t', written, keyed', cells' ▸ rfl⟩
    | some stored =>
      obtain ⟨t', written, keyed', cells'⟩ :=
        keyed.write_over (Cells.read_eq_ok_some.mp readable) fits
      exact ⟨_, t', written, keyed', cells' ▸ rfl⟩
  · have other : ∀ actual, t.cells.read key = .ok actual → actual.map Stored.version ≠ expected :=
      fun actual readable eq => same ⟨actual, readable, eq⟩
    rw [write_unchanged (keyed.change_unchanged fits other)]
    cases readable : t.cells.read key with
    | error e => exact .inr ⟨e, rfl, by simp [Cells.write, Nat.not_le.mpr fits, readable]⟩
    | ok actual =>
      refine .inl ⟨_, t, rfl, keyed, ?_⟩
      simp [Cells.write, Nat.not_le.mpr fits, readable, other actual readable]

end Table

/-! ## Memory -/

namespace Documents

/-- What documents in memory hold. -/
def cells (ds : Documents) : Cells :=
  fun key => (ds.get? key).map Stored.cell

variable {ds : Documents} {key : String}

/-- Documents in memory read what their cells read. -/
lemma read_cells (ds : Documents) (key : String) : ds.cells.read key = .ok (ds.get? key) := by
  cases held : ds.get? key with
  | none => exact Cells.read_eq_ok_none.mpr (by simp [cells, held])
  | some stored => exact Cells.read_eq_ok_some.mpr (by simp [cells, held])

/-- A document that is put is in its cell. -/
lemma cells_put (ds : Documents) (key : String) (stored : Stored) :
    (ds.put key stored).cells = Function.update ds.cells key (some stored.cell) := by
  funext other
  by_cases here : other = key
  · simp [here, cells, get?_put_self]
  · simp [Function.update_of_ne here, cells, get?_put_of_ne ds stored here]

/-- A conditional write in memory is one of what is held. -/
lemma write_eq (ds : Documents) (key : String) (document : List UInt8)
    (expected : Option Version) :
    ds.cells.write false key document expected
      = (.ok (ds.write key document expected).1, (ds.write key document expected).2.cells) := by
  simp only [Cells.write, read_cells, write, Bool.false_eq_true, false_and, if_false]
  split
  · rw [cells_put]
  · rfl

end Documents

/-! ## Databases and stores -/

/-- The rows that were set are those of the table. -/
lemma Database.table_setTable (db : Database) (name : String) (t : Table) :
    (db.setTable name t).table name = t := by
  induction db with
  | nil => simp [setTable, table]
  | cons entry db ih =>
    obtain ⟨n, u⟩ := entry
    by_cases here : n = fold name
    · simp [setTable, table, here]
    · have skip : (fold name == n) = false := by simpa using fun eq => here eq.symm
      simp only [table] at ih
      simp [setTable, table, here, List.lookup_cons, skip, ih]

namespace Backing

/-- What a store holds. -/
def cells : Backing → Cells
  | .memory ds => ds.cells
  | .table name db => (db.table name).cells

/-- No two rows of a table have the same key. -/
def Keyed : Backing → Prop
  | .memory _ => True
  | .table name db => (db.table name).Keyed

/-- Whether versions are limited. -/
def limited : Backing → Bool
  | .memory _ => false
  | .table _ _ => true

variable {b : Backing}

/-- A read of a store is one of what it holds. -/
lemma run_read_cells (b : Backing) (key : String) :
    (store.read key).run b = (b.cells.read key, b) := by
  cases b with
  | memory ds =>
    rw [cells, Documents.read_cells]
    rfl
  | table name db =>
    rw [cells, ← Table.read_eq]
    rfl

/-- A conditional write of a store is one of what it holds. -/
lemma run_write_cells (keyed : b.Keyed) (key : String) (document : List UInt8)
    (expected : Option Version) :
    ∃ r b', (store.write key document expected).run b = (r, b') ∧ b'.Keyed
      ∧ b'.limited = b.limited ∧ b.cells.write b.limited key document expected = (r, b'.cells) := by
  cases b with
  | memory ds => exact ⟨_, _, rfl, trivial, rfl, Documents.write_eq ds key document expected⟩
  | table name db =>
    rcases Table.Keyed.write_eq keyed key document expected with
      ⟨outcome, t', written, keyed', swapped⟩ | ⟨e, refused, swapped⟩
    · refine ⟨.ok outcome, .table name (db.setTable name t'), ?_, ?_, rfl, ?_⟩
      · simp [store, written]
        rfl
      · rwa [Keyed, Database.table_setTable]
      · rwa [cells, cells, Database.table_setTable]
    · refine ⟨.error e, .table name db, ?_, keyed, rfl, swapped⟩
      simp [store, refused]
      rfl

end Backing

end MetricRegistry
