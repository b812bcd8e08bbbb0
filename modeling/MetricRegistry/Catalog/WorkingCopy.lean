import MetricRegistry.Catalog.Mutation

/-!
# Changing a catalog in its place

`Schema.apply` gives a new catalog or none.  A working copy is changed in its place instead: an
`Amending` writes to it step by step, between the checks, and what it wrote before a check that
refuses stays written.  `Schema.amend` makes a mutation this way, an id taken from the counter, an
alias removed and a name set each by a write of its own, and checks the catalog at the end.
-/

namespace MetricRegistry.Catalog

/-- A computation that writes to a working copy and may be refused half-way. -/
abbrev Amending (σ : Type) :=
  EStateM Rejection σ

namespace Amending

variable {σ τ α : Type}

/-- Goes on with a result or is refused. -/
def ofExcept (r : Except Rejection α) : Amending σ α :=
  match r with
  | .ok a => pure a
  | .error e => throw e

/-- Amends a part of a working copy.  What was written to the part is written to the whole, also if
the part was refused half-way. -/
def within (part : σ → τ) (write : σ → τ → σ) (a : Amending τ α) : Amending σ α := fun s =>
  match a.run (part s) with
  | .ok x t => .ok x (write s t)
  | .error e t => .error e (write s t)

end Amending

namespace Directory

variable {α : Type} [Entry α]

/-- The place of the entry that answers to a name. -/
def position? (d : Directory α) (name : String) : Option Nat :=
  d.entries.findIdx? fun x => (Entry.naming x).answersTo name

/-- Changes the entry in a place. -/
def writeAt (place : Nat) (change : α → α) : Amending (Directory α) Unit :=
  modify fun d => { d with entries := d.entries.modify place change }

/-- The place of the entry that a caller refers to by a name, and the entry. -/
def refer (scope : Scope) (reference : String) : Amending (Directory α) (Nat × α) := do
  let d ← get
  match d.position? reference with
  | some place =>
    match d.entries[place]? with
    | some x => return (place, x)
    | none => throw (.notFound scope.entity reference)
  | none => throw (.notFound scope.entity reference)

/-- Takes an id from the counter. -/
def takeId (scope : Scope) : Amending (Directory α) UInt32 := do
  let (id, next) ← .ofExcept (allocate scope (← get))
  modify fun d => { d with next := next }
  return id

/-- Makes a text cease to be an alias of the entry in a place, and tells whether it was one. -/
def promoteAlias (place : Nat) (x : α) (alternate : String) : Amending (Directory α) Bool := do
  if (Entry.naming x).aliases.contains alternate then
    writeAt place fun x =>
      Entry.rename x ⟨(Entry.naming x).name, (Entry.naming x).aliases.erase alternate⟩
    return true
  else return false

/-- Adds an entry, made of its id and what it is to be called. -/
def amendCreate (scope : Scope) (make : UInt32 → Naming → α) (n : Naming) :
    Amending (Directory α) Unit := do
  .ofExcept ((validateNaming scope n).mapError .invalid)
  .ofExcept (ensureNew scope (← get) n.all)
  .ofExcept (ensureUnrepeated scope [n.name] n.aliases)
  let id ← takeId scope
  modify fun d => { d with entries := d.entries ++ [make id n] }

/-- Gives an entry another name; an alias that is promoted goes before the name comes. -/
def amendName (scope : Scope) (reference newName : String) : Amending (Directory α) Unit := do
  let (place, x) ← refer scope reference
  if (Entry.naming x).name == newName then return
  let promoted ← promoteAlias place x newName
  if !promoted then .ofExcept (ensureFree scope (← get) newName)
  writeAt place fun x => Entry.rename x ⟨newName, (Entry.naming x).aliases⟩

/-- Gives an entry one more alias. -/
def amendAddAlias (scope : Scope) (reference alternate : String) :
    Amending (Directory α) Unit := do
  let (place, _) ← refer scope reference
  .ofExcept (ensureFree scope (← get) alternate)
  writeAt place fun x =>
    Entry.rename x ⟨(Entry.naming x).name, (Entry.naming x).aliases ++ [alternate]⟩

/-- Takes an alias from an entry. -/
def amendRemoveAlias (scope : Scope) (reference alternate : String) :
    Amending (Directory α) Unit := do
  let (place, x) ← refer scope reference
  if (Entry.naming x).aliases.contains alternate then
    writeAt place fun x =>
      Entry.rename x ⟨(Entry.naming x).name, (Entry.naming x).aliases.erase alternate⟩
  else throw (.notFound .alternateName alternate)

/-- Removes an entry. -/
def amendDelete (scope : Scope) (reference : String) : Amending (Directory α) Unit := do
  let (place, _) ← refer scope reference
  modify fun d => { d with entries := d.entries.eraseIdx place }

end Directory

namespace Schema

/-- Amends the metrics. -/
def amendMetrics (a : Amending (Directory Metric) Unit) : Amending Schema Unit :=
  a.within (fun s => s.metrics) fun s metrics => { s with metrics := metrics }

/-- Amends the fields of a metric. -/
def amendFields (metric : String) (a : Scope → Amending (Directory Field) Unit) :
    Amending Schema Unit :=
  amendMetrics do
    let (place, m) ← Directory.refer .metrics metric
    (a m.scope).within (fun _ => m.fields) fun d fields =>
      { d with entries := d.entries.modify place fun m => { m with fields := fields } }

/-- Makes a change in its place, up to the check at the end. -/
def amendUnchecked : Mutation → Amending Schema Unit
  | .setMetricKeys keys => do
    .ofExcept ((validateDistinct "metric key" keys).mapError .invalid)
    modify fun s => { s with metricKeys := keys }
  | .setTimestampFormats formats => do
    .ofExcept ((validateFormats formats).mapError .invalid)
    modify fun s => { s with timestampFormats := formats }
  | .createMetric name aliases =>
    amendMetrics (Directory.amendCreate .metrics (fun id n => ⟨id, n, .empty⟩) ⟨name, aliases⟩)
  | .renameMetric metric newName => do
    .ofExcept ((validateName "metric name" newName).mapError .invalid)
    amendMetrics (Directory.amendName .metrics metric newName)
  | .addMetricAlias metric alternate => do
    .ofExcept ((validateName "metric alias" alternate).mapError .invalid)
    amendMetrics (Directory.amendAddAlias .metrics metric alternate)
  | .removeMetricAlias metric alternate =>
    amendMetrics (Directory.amendRemoveAlias .metrics metric alternate)
  | .deleteMetric metric =>
    amendMetrics (Directory.amendDelete .metrics metric)
  | .createField metric name type aliases =>
    amendFields metric fun scope =>
      Directory.amendCreate scope (fun id n => ⟨id, n, type⟩) ⟨name, aliases⟩
  | .renameField metric field newName => do
    .ofExcept ((validateName "field name" newName).mapError .invalid)
    amendFields metric fun scope => Directory.amendName scope field newName
  | .addFieldAlias metric field alternate => do
    .ofExcept ((validateName "field alias" alternate).mapError .invalid)
    amendFields metric fun scope => Directory.amendAddAlias scope field alternate
  | .removeFieldAlias metric field alternate =>
    amendFields metric fun scope => Directory.amendRemoveAlias scope field alternate
  | .deleteField metric field =>
    amendFields metric fun scope => Directory.amendDelete scope field

/-- Makes a change in its place and checks the catalog that comes of it. -/
def amend (m : Mutation) : Amending Schema Unit := do
  amendUnchecked m
  .ofExcept ((← get).check.mapError .invalid)

end Schema

end MetricRegistry.Catalog
