import MetricRegistry.Store.Basic

/-!
# Documents in memory

The plain store: a list of documents by key, at most one for each.  `get?_put_self` and
`get?_put_of_ne` say what a look-up finds after a document was put.
-/

namespace MetricRegistry

/-- Documents by key, in the order of their creation. -/
abbrev Documents := List (String × Stored)

namespace Documents

/-- The document under a key. -/
def get? (ds : Documents) (key : String) : Option Stored :=
  List.lookup key ds

/-- Puts a document under a key. -/
def put (key : String) (stored : Stored) : Documents → Documents
  | [] => [(key, stored)]
  | (k, s) :: ds => if k == key then (k, stored) :: ds else (k, s) :: put key stored ds

/-- A document is found under the key it was put. -/
theorem get?_put_self (ds : Documents) (key : String) (stored : Stored) :
    (ds.put key stored).get? key = some stored := by
  induction ds with
  | nil => simp [put, get?]
  | cons d ds ih =>
    obtain ⟨k, s⟩ := d
    by_cases h : k = key
    · simp [put, get?, h]
    · have h' : (key == k) = false := by simpa using fun e => h e.symm
      simp only [get?] at ih
      simp [put, get?, h, List.lookup_cons, h', ih]

/-- Other documents stay as they are. -/
theorem get?_put_of_ne (ds : Documents) {key other : String} (stored : Stored) (ne : other ≠ key) :
    (ds.put key stored).get? other = ds.get? other := by
  have ne' : (other == key) = false := by simpa using ne
  induction ds with
  | nil => simp [put, get?, List.lookup_cons, ne']
  | cons d ds ih =>
    obtain ⟨k, s⟩ := d
    simp only [get?] at ih
    by_cases h : k = key
    · simp [put, get?, h, List.lookup_cons, ne']
    · simp [put, get?, h, List.lookup_cons, ih]

/-- Writes a document if the stored version is as expected. -/
def write (ds : Documents) (key : String) (document : List UInt8) (expected : Option Version) :
    Outcome × Documents :=
  let actual := (ds.get? key).map (·.version)
  if actual = expected then
    let version := nextVersion expected
    (.committed version, ds.put key ⟨document, version⟩)
  else (.conflict actual, ds)

/-- The store of documents in memory.  It never fails. -/
def store : Store (StateM Documents) where
  read key := do return .ok ((← get).get? key)
  write key document expected := do
    let (outcome, ds) := (← get).write key document expected
    set ds
    return .ok outcome

end Documents

end MetricRegistry
