import MetricRegistry.Proofs.Catalog.Edited
import MetricRegistry.Proofs.Catalog.Resolution

/-!
# A refused change leaves the working copy as it was

`Schema.amend` writes to its working copy between checks. `Amending.Does` says that a computation in
place ends as a function does, in what the function gives or, where it refuses, in the copy that it
started with. Each operation on a directory does what its counterpart does to a directory that is
not changed in place (`amendCreate_does`, `amendName_does`, …), since every check that can refuse
comes before the first write; so does a mutation up to the check at its end, and that passes
wherever the catalog was sound before (`amend_atomic`).
-/

namespace MetricRegistry.Catalog

namespace Amending

variable {σ τ α : Type} {s : σ}

/-- What is left of a working copy by a change that gave a result or was refused. -/
def left (s : σ) : Except Rejection σ → EStateM.Result Rejection σ Unit
  | .ok s' => .ok () s'
  | .error e => .error e s

/-- A computation in place does what a function does, and nothing where that refuses. -/
def Does (a : Amending σ Unit) (f : σ → Except Rejection σ) : Prop :=
  ∀ s, a.run s = left s (f s)

/-- A result changes nothing. -/
@[simp]
lemma run_ofExcept (r : Except Rejection α) :
    (ofExcept r : Amending σ α).run s
      = match r with
        | .ok a => .ok a s
        | .error e => .error e s := by
  cases r <;> rfl

/-- A part of a state is changed within it. -/
lemma run_within {part : σ → τ} {write : σ → τ → σ} (a : Amending τ α) :
    (a.within part write).run s
      = match a.run (part s) with
        | .ok x t => .ok x (write s t)
        | .error e t => .error e (write s t) :=
  rfl

/-- A check before a computation refuses before anything is written. -/
lemma run_checked {a : Amending σ Unit} {x : Except Rejection σ} (does : a.run s = left s x)
    (r : Except Rejection α) :
    (do let _ ← ofExcept r; a).run s = left s (do let _ ← r; x) := by
  rw [EStateM.run_bind, run_ofExcept]
  cases r with
  | ok _ => exact does
  | error _ => rfl

/-- What does something does it after a check as well. -/
lemma Does.checked {a : Amending σ Unit} {f : σ → Except Rejection σ} (does : a.Does f)
    (r : Except Rejection α) : Does (do let _ ← ofExcept r; a) (fun s => do let _ ← r; f s) :=
  fun s => run_checked (does s) r

/-- What is done to a part is done to the whole. -/
lemma Does.within {a : Amending τ Unit} {f : τ → Except Rejection τ} {part : σ → τ}
    {write : σ → τ → σ} (lawful : ∀ s, write s (part s) = s) (does : a.Does f) :
    (a.within part write).Does fun s => do return write s (← f (part s)) := by
  intro s
  rw [run_within, does]
  dsimp only
  cases f (part s) with
  | ok t => rfl
  | error e => exact congrArg (EStateM.Result.error e) (lawful s)

end Amending

namespace Directory

variable {α : Type} [Entry α] {d : Directory α} {scope : Scope} {reference : String}

open Amending (left)

/-- A reference is followed to the place of its entry. -/
lemma run_refer (d : Directory α) :
    (refer scope reference).run d
      = match d.require scope reference with
        | .ok l => .ok (l.before.length, l.it) d
        | .error e => .error e d := by
  rw [refer, EStateM.run_bind, EStateM.run_get]
  dsimp only
  rw [position?_eq, require]
  cases located : d.locate? reference with
  | none => rfl
  | some l =>
    obtain ⟨split, -⟩ := Located.first?_eq_some located
    have here : d.entries[l.before.length]? = some l.it := by simp [split]
    simp [here]

/-- What follows a reference does what it does to the entry that is located. -/
lemma run_referred {d : Directory α} {next : Nat × α → Amending (Directory α) Unit}
    {f : Located α → Except Rejection (Directory α)}
    (does : ∀ l : Located α, d.entries = l.before ++ l.it :: l.after →
      (next (l.before.length, l.it)).run d = left d (f l)) :
    (do next (← refer scope reference)).run d
      = left d (do f (← d.require scope reference)) := by
  rw [EStateM.run_bind, run_refer]
  cases found : d.require scope reference with
  | error e => rfl
  | ok l => exact does l (require_eq_ok found).1

omit [Entry α] in
/-- A change in the place of a located entry. -/
lemma modify_located {l : Located α} (split : d.entries = l.before ++ l.it :: l.after)
    (change : α → α) : d.entries.modify l.before.length change = l.replace (change l.it) := by
  rw [split, List.modify_eq_take_cons_drop (by simp)]
  simp [Located.replace]

omit [Entry α] in
/-- A second change in the place of a located entry is made of the first. -/
lemma modify_replace (l : Located α) (x : α) (change : α → α) :
    (l.replace x).modify l.before.length change = l.replace (change x) :=
  modify_located (d := ⟨0, l.replace x⟩) (l := ⟨l.before, x, l.after⟩) rfl change

omit [Entry α] in
/-- What is written at the place of an entry replaces it. -/
lemma run_writeAt {l : Located α} (split : d.entries = l.before ++ l.it :: l.after)
    (change : α → α) :
    (writeAt l.before.length change).run d
      = .ok () { d with entries := l.replace (change l.it) } := by
  rw [writeAt, EStateM.run_modify, modify_located split]

/-- An alias that is promoted is taken from the aliases of its entry and is its name. -/
lemma run_promoteAlias {l : Located α} (split : d.entries = l.before ++ l.it :: l.after)
    (alternate : String) :
    (promoteAlias l.before.length l.it alternate).run d
      = if (Entry.naming l.it).aliases.contains alternate then
          .ok true { d with
            entries := l.replace (Entry.rename l.it
              ⟨(Entry.naming l.it).name, (Entry.naming l.it).aliases.erase alternate⟩) }
        else .ok false d := by
  rw [promoteAlias]
  split
  · rw [EStateM.run_bind, run_writeAt split]
    rfl
  · rfl

/-- Deleting in place deletes. -/
lemma amendDelete_does :
    (amendDelete scope reference).Does (delete (α := α) scope reference) := by
  refine fun d => run_referred (d := d) fun l split => ?_
  have gone : d.entries.eraseIdx l.before.length = l.remove := by
    simp [split, List.eraseIdx_append, Located.remove]
  simp only [EStateM.run_modify, gone]
  rfl

/-- Adding an alias in place adds it. -/
lemma amendAddAlias_does {alternate : String} :
    (amendAddAlias scope reference alternate).Does
      (addAlias (α := α) scope reference alternate) := by
  refine fun d => run_referred (d := d) fun l split => ?_
  exact Amending.run_checked (s := d) (run_writeAt split _) (d.ensureFree scope alternate)

/-- Removing an alias in place removes it. -/
lemma amendRemoveAlias_does {alternate : String} :
    (amendRemoveAlias scope reference alternate).Does
      (removeAlias (α := α) scope reference alternate) := by
  refine fun d => run_referred (d := d) fun l split => ?_
  show EStateM.run (ite _ _ _) d = left d (ite _ _ _)
  split
  · exact run_writeAt split _
  · rfl

/-- Giving a name in place renames. -/
lemma amendName_does [NamedEntry α] {newName : String} :
    (amendName scope reference newName).Does (rename (α := α) scope reference newName) := by
  refine fun d => run_referred (d := d) fun l split => ?_
  show EStateM.run (ite _ _ _) d = left d (ite _ _ _)
  split
  · rfl
  dsimp only
  rw [EStateM.run_bind, run_promoteAlias split]
  by_cases promoted : (Entry.naming l.it).aliases.contains newName = true
  -- the name has no check left when the alias is gone
  · simp only [if_pos promoted, Bool.not_true, Bool.false_eq_true, if_false, writeAt,
      EStateM.run_modify, modify_replace, LawfulEntry.naming_rename, NamedEntry.rename_rename]
    rfl
  · simp only [if_neg promoted, Bool.not_false, if_true]
    exact Amending.run_checked (s := d) (run_writeAt split _) (d.ensureFree scope newName)

omit [Entry α] in
/-- The next id is taken from its counter. -/
lemma run_takeId (d : Directory α) :
    (takeId scope).run d
      = match d.allocate scope with
        | .ok (id, next) => .ok id { d with next := next }
        | .error e => .error e d := by
  show EStateM.run (do let r ← Amending.ofExcept (d.allocate scope); _) d = _
  rw [EStateM.run_bind, Amending.run_ofExcept]
  cases d.allocate scope <;> rfl

/-- Creating in place creates. -/
lemma amendCreate_does {make : UInt32 → Naming → α} {n : Naming} :
    (amendCreate scope make n).Does (create scope make n) := by
  intro d
  refine Amending.run_checked (s := d) ?_ ((validateNaming scope n).mapError .invalid)
  refine Amending.run_checked (s := d) ?_ (d.ensureNew scope n.all)
  refine Amending.run_checked (s := d) ?_ (ensureUnrepeated scope [n.name] n.aliases)
  rw [EStateM.run_bind, run_takeId]
  cases d.allocate scope <;> rfl

end Directory

namespace Schema

open Amending (left)

variable {s s' : Schema}

/-- Changing the metrics in place changes them. -/
lemma amendMetrics_does {a : Amending (Directory Metric) Unit}
    {change : Directory Metric → Except Rejection (Directory Metric)} (does : a.Does change) :
    (amendMetrics a).Does fun s => s.changeMetrics change :=
  does.within fun _ => rfl

/-- Changing the fields of a metric in place changes them. -/
lemma amendFields_does {metric : String} {a : Scope → Amending (Directory Field) Unit}
    {change : Scope → Directory Field → Except Rejection (Directory Field)}
    (does : ∀ scope, (a scope).Does (change scope)) :
    (amendFields metric a).Does fun s => s.changeFields metric change := by
  refine amendMetrics_does fun d => ?_
  refine Directory.run_referred fun l split => ?_
  rw [Amending.run_within, does]
  cases changed : change l.it.scope l.it.fields with
  | ok fields =>
    simp only [left, bind, Except.bind, changed, Directory.modify_located split]
    rfl
  | error e =>
    -- the fields are written back as they were found
    simp only [left, bind, Except.bind, changed, Directory.modify_located split,
      Located.replace, ← split]

/-- A change in its place is the change of the catalog, up to the check at the end. -/
lemma amendUnchecked_does (m : Mutation) : (amendUnchecked m).Does fun s => s.edit m := by
  cases m with
  | setMetricKeys keys =>
    exact Amending.Does.checked (f := fun s : Schema => .ok { s with metricKeys := keys })
      (fun _ => rfl)
      ((validateDistinct "metric key" keys).mapError .invalid)
  | setTimestampFormats formats =>
    exact Amending.Does.checked (f := fun s : Schema => .ok { s with timestampFormats := formats })
      (fun _ => rfl)
      ((validateFormats formats).mapError .invalid)
  | createMetric name aliases => exact amendMetrics_does Directory.amendCreate_does
  | renameMetric metric newName =>
    exact (amendMetrics_does Directory.amendName_does).checked
      ((validateName "metric name" newName).mapError .invalid)
  | addMetricAlias metric alternate =>
    exact (amendMetrics_does Directory.amendAddAlias_does).checked
      ((validateName "metric alias" alternate).mapError .invalid)
  | removeMetricAlias metric alternate => exact amendMetrics_does Directory.amendRemoveAlias_does
  | deleteMetric metric => exact amendMetrics_does Directory.amendDelete_does
  | createField metric name type aliases =>
    simp only [amendUnchecked, edit]
    exact amendFields_does fun _ => Directory.amendCreate_does
  | renameField metric field newName =>
    exact (amendFields_does fun _ => Directory.amendName_does).checked
      ((validateName "field name" newName).mapError .invalid)
  | addFieldAlias metric field alternate =>
    exact (amendFields_does fun _ => Directory.amendAddAlias_does).checked
      ((validateName "field alias" alternate).mapError .invalid)
  | removeFieldAlias metric field alternate =>
    simp only [amendUnchecked, edit]
    exact amendFields_does fun _ => Directory.amendRemoveAlias_does
  | deleteField metric field =>
    simp only [amendUnchecked, edit]
    exact amendFields_does fun _ => Directory.amendDelete_does

/-- The check at the end refuses a catalog only after it was changed. -/
lemma run_amend (m : Mutation) (s : Schema) :
    (amend m).run s
      = match s.edit m with
        | .error e => .error e s
        | .ok s' =>
          match s'.check with
          | .ok _ => .ok () s'
          | .error v => .error (.invalid v) s' := by
  rw [amend, EStateM.run_bind, amendUnchecked_does]
  dsimp only
  cases s.edit m with
  | error e => rfl
  | ok s' =>
    dsimp only
    show (Amending.ofExcept (s'.check.mapError .invalid)).run s' = _
    rw [Amending.run_ofExcept]
    cases s'.check <;> rfl

/-- Every mutation of a sound catalog in its place ends as one that gives a new catalog does. Either
it is made and the catalog is sound again, or it is rejected and the working copy is what it was; so
the check at the end passes whenever it is reached. -/
theorem amend_atomic (sound : s.check = .ok ()) (m : Mutation) :
    ((∃ s', (amend m).run s = .ok () s' ∧ s.apply m = .ok s' ∧ s'.check = .ok ())
      ∨ ∃ e, (amend m).run s = .error e s ∧ s.apply m = .error e
        ∧ (RegistryError.rejected e).isRejection = true)
      ∧ ∀ s', (amendUnchecked m).run s = .ok () s' → s'.check = .ok () := by
  have unambiguous := check_eq_ok.mp sound
  rw [run_amend, amendUnchecked_does]
  cases edited : s.edit m with
  | error e =>
    have rejected : s.apply m = .error e := by
      rw [apply, edited]
      rfl
    refine ⟨.inr ⟨e, rfl, rejected, rfl⟩, ?_⟩
    intro s' made
    simp only [edited, left, reduceCtorEq] at made
  | ok t =>
    have checked : t.check = .ok () :=
      check_eq_ok.mpr ((edit_step edited).unambiguous unambiguous)
    refine ⟨.inl ⟨t, ?_, (apply_eq_ok_iff_edit unambiguous).mpr edited, checked⟩, ?_⟩
    · dsimp only
      rw [checked]
    · intro s' made
      simp only [edited, left, EStateM.Result.ok.injEq, true_and] at made
      exact made ▸ checked

/-- A metric takes one of its aliases as its name, and is refused the name of another. -/
theorem amend_atomic_rename :
    let s (name : String) (aliases : List String) : Schema := ⟨⟨"acme", [], []⟩,
      ⟨9, [⟨3, ⟨name, aliases⟩, .empty⟩, ⟨7, ⟨"clicks", []⟩, .empty⟩]⟩⟩
    let before := s "views" ["seen", "hits"]
    (amend (.renameMetric "seen" "hits")).run before = .ok () (s "hits" ["seen"])
      ∧ (amend (.renameMetric "seen" "clicks")).run before
        = .error (.invalid (.nameTaken .metrics "clicks" "clicks")) before := by
  intro s before
  have sound : before.check = .ok () := by decide +kernel
  constructor
  · have made : before.apply (.renameMetric "seen" "hits") = .ok (s "hits" ["seen"]) := by
      decide +kernel
    obtain ⟨⟨s', run, applied, -⟩ | ⟨e, -, rejected, -⟩, -⟩ :=
      amend_atomic sound (.renameMetric "seen" "hits")
    · rwa [Except.ok.inj (applied.symm.trans made)] at run
    · exact nomatch made.symm.trans rejected
  · have refused : before.apply (.renameMetric "seen" "clicks")
        = .error (.invalid (.nameTaken .metrics "clicks" "clicks")) := by
      decide +kernel
    obtain ⟨⟨t, -, applied, -⟩ | ⟨e, run, rejected, -⟩, -⟩ :=
      amend_atomic sound (.renameMetric "seen" "clicks")
    · exact nomatch refused.symm.trans applied
    · rwa [Except.error.inj (rejected.symm.trans refused)] at run

end Schema

end MetricRegistry.Catalog
