import MetricRegistry.Proofs.Store.Cells

/-!
# What a store shows

Documents in memory and documents in a table are told apart by nothing that the registry can see.
`Backing.view` is what either kind shows under every key, `Backing.run_read` says that a read finds
it, and `Written` what a conditional write does to it: the document is stored under the next
version, or the version stored is not the expected one, or the next one does not fit into a table's
column. `Backing.run_write` reads a write as one of these. A table has to be `Table.Sound`, which
one without rows is and each write leaves it.
-/

namespace MetricRegistry

/-- What is stored under each key. -/
abbrev View := String → Option Stored

/-- The version that is stored under a key. -/
def View.version (v : View) (key : String) : Option Version :=
  (v key).map Stored.version

/-- What a conditional write gives and what it makes of a view. -/
inductive Written (v : View) (key : String) (document : List UInt8) (expected : Option Version) :
    Except RegistryError Outcome → View → Prop where
  | committed :
    v.version key = expected →
    Written v key document expected (.ok (.committed (nextVersion expected)))
      (Function.update v key (some ⟨document, nextVersion expected⟩))
  | conflict :
    v.version key ≠ expected →
    Written v key document expected (.ok (.conflict (v.version key))) v
  | failed :
    UInt64.size / 2 ≤ nextVersion expected →
    Written v key document expected
      (.error (.corruption (.versionTooLarge (nextVersion expected)))) v

/-! ## Cells that can be read -/

namespace Cells

/-- The documents that are held, as they can be read. -/
def view (cs : Cells) : View :=
  fun key => (cs key).map fun c => ⟨c.document, c.version.toNat⟩

/-- No version is negative. -/
def Readable (cs : Cells) : Prop :=
  ∀ key c, cs key = some c → 0 ≤ c.version

variable {cs : Cells} {key : String}

/-- Where there are no cells all can be read. -/
lemma readable_empty : Readable fun _ => none :=
  fun _ _ held => by cases held

/-- What can be read is what is viewed. -/
lemma Readable.read_eq (readable : cs.Readable) (key : String) :
    cs.read key = .ok (cs.view key) := by
  cases held : cs key with
  | none => exact (read_eq_ok_none.mpr held).trans (by simp [view, held])
  | some c =>
    have version : (c.version.toNat : Int) = c.version := Int.toNat_of_nonneg (readable key c held)
    have same : cs key = some (Stored.cell ⟨c.document, c.version.toNat⟩) := by
      rw [held, Stored.cell, version]
    exact (read_eq_ok_some.mpr same).trans (by simp [view, held])

/-- A document that is put can be read. -/
lemma Readable.update (readable : cs.Readable) (stored : Stored) :
    Readable (Function.update cs key (some stored.cell)) := by
  intro other c held
  by_cases here : other = key
  · obtain rfl : stored.cell = c := by simpa [here] using held
    exact Int.natCast_nonneg _
  · rw [Function.update_of_ne here] at held
    exact readable other c held

/-- A document that is put is viewed. -/
lemma view_update (cs : Cells) (key : String) (stored : Stored) :
    view (Function.update cs key (some stored.cell))
      = Function.update cs.view key (some stored) := by
  funext other
  by_cases here : other = key
  · simp [here, view, Stored.cell]
  · simp [Function.update_of_ne here, view]

/-- A conditional write of cells that can be read leaves them so, and changes what they show as
`Written` says. -/
lemma Readable.write (readable : cs.Readable) {limited : Bool} {document : List UInt8}
    {expected : Option Version} {r : Except RegistryError Outcome} {cs' : Cells}
    (swapped : cs.write limited key document expected = (r, cs')) :
    cs'.Readable ∧ Written cs.view key document expected r cs'.view := by
  have swap := write_swap cs limited key document expected
  rw [swapped] at swap
  cases swap with
  | committed _ read =>
    obtain rfl := Except.ok.inj ((readable.read_eq key).symm.trans read)
    refine ⟨readable.update _, ?_⟩
    rw [view_update]
    exact .committed rfl
  | conflict read other =>
    obtain rfl := Except.ok.inj ((readable.read_eq key).symm.trans read)
    exact ⟨readable, .conflict other⟩
  | unreadable refused => rw [readable.read_eq key] at refused; cases refused
  | tooLarge _ large => exact ⟨readable, .failed large⟩

end Cells

/-! ## Tables -/

/-- What a row holds. -/
def Row.stored (row : Row) : Stored :=
  ⟨row.document, row.version.toNat⟩

namespace Table

/-- No key comes twice, and no version is negative. -/
structure Sound (t : Table) : Prop where
  keys_nodup : (t.map Row.key).Nodup
  version_nonneg : ∀ row ∈ t, 0 ≤ row.version

/-- What a table shows. -/
def view (t : Table) : View :=
  fun key => (t.select key).map Row.stored

variable {t : Table}

/-- A table is viewed as its cells are. -/
lemma view_cells (t : Table) : t.cells.view = t.view := by
  funext key
  simp only [Cells.view, cells, view, Option.map_map]
  rfl

/-- A table is sound if no key comes twice and its cells can be read. -/
lemma sound_iff : t.Sound ↔ t.Keyed ∧ t.cells.Readable := by
  constructor
  · rintro ⟨keyed, nonneg⟩
    refine ⟨keyed, fun key c held => ?_⟩
    obtain ⟨row, found, rfl⟩ := Option.map_eq_some_iff.mp held
    exact nonneg row (mem_of_select found).1
  · rintro ⟨keyed, readable⟩
    refine ⟨keyed, fun row mem => readable row.key row.cell ?_⟩
    rw [cells, keyed.select_of_mem mem, Option.map_some]

end Table

/-! ## Stores -/

namespace Backing

/-- What a store shows. -/
def view : Backing → View
  | .memory ds => ds.get?
  | .table name db => (db.table name).view

/-- Documents in memory are sound, and rows where the table is. -/
def Sound : Backing → Prop
  | .memory _ => True
  | .table name db => (db.table name).Sound

/-- Nothing is stored. -/
def IsEmpty : Backing → Prop
  | .memory ds => ds = []
  | .table name db => db.table name = []

variable {b b' : Backing}

/-- A store is viewed as its cells are. -/
lemma view_cells (b : Backing) : b.cells.view = b.view := by
  cases b with
  | memory ds =>
    funext key
    simp [Cells.view, cells, Documents.cells, view, Stored.cell, Function.comp_def]
  | table name db => exact Table.view_cells _

/-- A store is sound if no key comes twice and its cells can be read. -/
lemma sound_iff : b.Sound ↔ b.Keyed ∧ b.cells.Readable := by
  cases b with
  | memory ds =>
    refine iff_of_true trivial ⟨trivial, fun key c held => ?_⟩
    obtain ⟨stored, -, rfl⟩ := Option.map_eq_some_iff.mp held
    exact Int.natCast_nonneg _
  | table name db => exact Table.sound_iff

/-- An empty store has no cells. -/
lemma IsEmpty.cells_eq (empty : b.IsEmpty) : b.Keyed ∧ b.cells = fun _ => none := by
  cases b with
  | memory ds =>
    obtain rfl : ds = [] := empty
    exact ⟨trivial, rfl⟩
  | table name db =>
    have rows : db.table name = [] := empty
    rw [Keyed, cells, rows]
    exact ⟨Table.keyed_nil, rfl⟩

/-- An empty store is sound and shows nothing. -/
lemma IsEmpty.sound (empty : b.IsEmpty) : b.Sound ∧ b.view = fun _ => none := by
  obtain ⟨keyed, none⟩ := empty.cells_eq
  rw [sound_iff, ← view_cells, none]
  exact ⟨⟨keyed, Cells.readable_empty⟩, rfl⟩

/-- A sound store reads what it shows. -/
lemma run_read (sound : b.Sound) (key : String) :
    (store.read key).run b = (.ok (b.view key), b) := by
  rw [run_read_cells, (sound_iff.mp sound).2.read_eq, view_cells]

/-- A write changes what the store shows as `Written` says. -/
lemma run_write (sound : b.Sound) (key : String) (document : List UInt8)
    (expected : Option Version) :
    ∃ r b', (store.write key document expected).run b = (r, b') ∧ b'.Sound
      ∧ Written b.view key document expected r b'.view := by
  obtain ⟨keyed, readable⟩ := sound_iff.mp sound
  obtain ⟨r, b', run, keyed', -, swapped⟩ := run_write_cells keyed key document expected
  obtain ⟨readable', written⟩ := readable.write swapped
  rw [view_cells, view_cells] at written
  exact ⟨r, b', run, sound_iff.mpr ⟨keyed', readable'⟩, written⟩

end Backing

end MetricRegistry
