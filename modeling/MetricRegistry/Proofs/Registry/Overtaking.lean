import MetricRegistry.Proofs.Registry.Atomicity

/-!
# Attempts that are overtaken

An update that is tried again loses an attempt only to somebody who stored another document of the
organization between its read and its write. `Program.landings` counts such stores while a program
runs, and a program is `Overtaken` so often where each time one of them fell between a read and the
write that followed. `Update.Tries.overtaken` says that an update which ends in a conflict has been
overtaken in every attempt that it had, whether a caller made it or the handler of requests.
-/

namespace MetricRegistry

open Catalog

/-! ## Landings -/

/-- Whether an event stores a document under a key. -/
def Backing.lands (key : String) (b : Backing) : Event → Bool
  | .rival key' document expected =>
    match ((store.write key' document expected).run b).1 with
    | .ok (.committed _) => key' == key
    | _ => false
  | _ => false

/-- How often others store a document under a key while a program runs. -/
def Program.landings {α : Type} (key : String) (p : Program α) (b : Backing) : List Event → ℕ
  | [] => 0
  | e :: es =>
    (if b.lands key e then 1 else 0) + landings key (after (p, b) e).1 (after (p, b) e).2 es

/-- A program has read a document and then tried to write it as often as this, and each time
somebody else has stored another one in between. -/
inductive Overtaken {α : Type} (key : String) : ℕ → Program α → Backing → List Event → Prop where
  | never {p b es} :
    Overtaken key 0 p b es
  | again {n p before b next document expected resume inside p' b' rest} {start : Backing} :
    p.among start before = (.read key next, b) →
    (Program.read key next).access b = (.write key document expected resume, b) →
    (∀ e ∈ inside, e.IsRival) →
    0 < (Program.write key document expected resume).landings key b inside →
    (Program.write key document expected resume).access (b.others inside) = (p', b') →
    Overtaken key n p' b' rest →
    Overtaken key (n + 1) p start (before ++ .own :: (inside ++ .own :: rest))

section Landings

variable {α : Type} {key : String} {p : Program α} {b : Backing} {es fs : List Event}

/-- The commits that land during some events and during those after them add up. -/
lemma Program.landings_append (p : Program α) (b : Backing) (es fs : List Event) :
    p.landings key b (es ++ fs)
      = p.landings key b es + (p.among b es).1.landings key (p.among b es).2 fs := by
  induction es generalizing p b with
  | nil => simp [landings, among]
  | cons e es ih =>
    rw [List.cons_append, landings, landings, ih, Nat.add_assoc]
    rfl

/-- What does not land under a key leaves what is held there. -/
lemma Backing.cells_other (keyed : b.Keyed) {e : Event} (misses : b.lands key e = false) :
    (b.other e).Keyed ∧ (b.other e).cells key = b.cells key := by
  cases e with
  | own => exact ⟨keyed, rfl⟩
  | fault e => exact ⟨keyed, rfl⟩
  | rival key' document expected =>
    obtain ⟨r, b', run, keyed', -, swapped⟩ := run_write_cells keyed key' document expected
    rw [lands, run] at misses
    rw [other, run]
    refine ⟨keyed', ?_⟩
    have swap := Cells.write_swap b.cells b.limited key' document expected
    rw [swapped] at swap
    generalize b'.cells = cs at swap
    cases swap with
    | committed =>
      have ne : key ≠ key' := by
        rintro rfl
        simp at misses
      exact Function.update_of_ne ne _ _
    | conflict => rfl
    | unreadable => rfl
    | tooLarge => rfl

/-- Rivals that do not land leave a key as it is. -/
lemma Program.cells_others (keyed : b.Keyed) (none : p.landings key b es = 0)
    (rivals : ∀ e ∈ es, e.IsRival) :
    (b.others es).Keyed ∧ (b.others es).cells key = b.cells key := by
  induction es generalizing b with
  | nil => exact ⟨keyed, rfl⟩
  | cons e es ih =>
    obtain ⟨rival, rest⟩ := List.forall_mem_cons.mp rivals
    rw [landings, after_rival rival, Nat.add_eq_zero_iff] at none
    obtain ⟨misses, none⟩ := none
    obtain ⟨keyed', same⟩ := Backing.cells_other (e := e) keyed (by simpa using misses)
    obtain ⟨keyed'', same'⟩ := ih keyed' none rest
    exact ⟨keyed'', same'.trans same⟩

/-- Whoever has been overtaken so often has seen as many landings. -/
lemma Overtaken.le_landings {n : ℕ} (overtaken : Overtaken key n p b es) :
    n ≤ p.landings key b es := by
  induction overtaken with
  | never => exact Nat.zero_le _
  | @again n p before b next document expected resume inside p' b' rest start
      reads read rivals landed wrote _ ih =>
    -- neither the read nor the write is a landing, so those in between come on top of the rest
    have final : (Program.write key document expected resume).landings key (b.others inside)
        (.own :: rest) = p'.landings key b' rest := by
      rw [Program.landings, Program.after, wrote]
      simp [Backing.lands]
    have middle : (Program.read key next).landings key b (.own :: (inside ++ .own :: rest))
        = (Program.write key document expected resume).landings key b inside
          + p'.landings key b' rest := by
      rw [Program.landings, Program.after, read, Program.landings_append,
        Program.among_rivals rivals, final]
      simp [Backing.lands]
    rw [Program.landings_append, reads, middle]
    omega

end Landings

/-! ## Attempts -/

/-- A document that cannot be used is no lost race. -/
lemma schemaOf_isConflict {key : String} {stored : Stored} {e : RegistryError}
    (failed : schemaOf key stored = .error e) : e.isConflict = false := by
  simp only [schemaOf, Schema.decode, Except.bind_eq_error, Except.bind_eq_ok,
    Except.mapError_eq_error] at failed
  rcases failed with (⟨_, -, rfl⟩ | ⟨s, -, ⟨_, -, rfl⟩ | ⟨_, -, passed⟩⟩) | ⟨s, -, foreign⟩
  · rfl
  · rfl
  · cases passed
  · split at foreign
    · cases foreign
      rfl
    · cases foreign

/-- A version that cannot be read is no lost race. -/
lemma Cells.read_isConflict {cs : Cells} {key : String} {e : RegistryError}
    (failed : cs.read key = .error e) : e.isConflict = false := by
  obtain ⟨c, -, -, rfl⟩ := read_eq_error.mp failed
  rfl

/-- A version that cannot be written is no lost race. -/
lemma Cells.write_isConflict {cs cs' : Cells} {limited : Bool} {key : String}
    {document : List UInt8} {expected : Option Version} {e : RegistryError}
    (failed : cs.write limited key document expected = (.error e, cs')) : e.isConflict = false := by
  have swap := write_swap cs limited key document expected
  rw [failed] at swap
  cases swap with
  | unreadable refused => exact read_isConflict refused
  | tooLarge => rfl

/-- A write loses a race to a version other than the expected one. -/
lemma Cells.write_eq_conflict {cs cs' : Cells} {limited : Bool} {key : String}
    {document : List UInt8} {expected actual : Option Version}
    (lost : cs.write limited key document expected = (.ok (.conflict actual), cs')) :
    ∃ found, cs.read key = .ok found ∧ found.map Stored.version ≠ expected := by
  have swap := write_swap cs limited key document expected
  rw [lost] at swap
  cases swap with
  | conflict found other => exact ⟨_, found, other⟩

/-- No failure of the store passes for a conflict. -/
def Sane (es : List Event) : Prop :=
  ∀ e, .fault e ∈ es → e.isConflict = false

/-- What follows sane events is sane. -/
lemma Sane.append {es fs : List Event} (sane : Sane (es ++ fs)) : Sane fs :=
  fun e mem => sane e (List.mem_append_right es mem)

/-- What follows a sane event is sane. -/
lemma Sane.cons {e : Event} {es : List Event} (sane : Sane (e :: es)) : Sane es :=
  fun f mem => sane f (List.mem_cons_of_mem e mem)

/-- What goes on after an attempt takes whatever is no conflict for the result. -/
structure Persists {β : Type}
    (goOn : Except RegistryError Committed → Program (Except RegistryError β)) : Prop where
  ok : ∀ c, ∃ a, goOn (.ok c) = .done (.ok a)
  error : ∀ e, e.isConflict = false → goOn (.error e) = .done (.error e)

section Attempts

variable {β : Type} {goOn : Except RegistryError Committed → Program (Except RegistryError β)}
  {b : Backing} {es : List Event} {org : String} {ms : List Mutation} {e : RegistryError}

/-- What persists does not fail after a commit. -/
lemma Persists.ok_ne_error (persists : Persists goOn) {c : Committed} :
    ((goOn (.ok c)).among b es).1.result? ≠ some (.error e) := by
  obtain ⟨a, ends⟩ := persists.ok c
  rw [ends, Program.among_done]
  exact fun eq => by cases eq

/-- What persists does not lose a race after any other failure. -/
lemma Persists.isConflict_of_error (persists : Persists goOn) {f : RegistryError}
    (fatal : f.isConflict = false)
    (ended : ((goOn (.error f)).among b es).1.result? = some (.error e)) :
    e.isConflict = false := by
  rw [persists.error f fatal, Program.among_done] at ended
  cases ended
  exact fatal

/-- A write over what a store holds is lost to a conflict only after somebody else has stored
another document. -/
lemma Persists.writing_overtaken (persists : Persists goOn) (keyed : b.Keyed) (sane : Sane es)
    {stored : Stored} (held : b.cells org = some stored.cell) {s : Schema} {lost : RegistryError}
    {w : Program (Except RegistryError β)}
    (writing : w = .write org s.encode (some stored.version) fun r =>
      goOn (Committed.ofReply org s lost r))
    (ended : (w.among b es).1.result? = some (.error e)) (conflict : e.isConflict = true) :
    ∃ inside rest b', es = inside ++ .own :: rest ∧ (∀ x ∈ inside, x.IsRival)
      ∧ 0 < w.landings org b inside ∧ w.access (b.others inside) = (goOn (.error lost), b')
      ∧ b'.Keyed ∧ ((goOn (.error lost)).among b' rest).1.result? = some (.error e) := by
  rcases Program.among_cases ended with rfl | ⟨inside, event, rest, rfl, rivals, moves, run⟩
  · cases writing
  subst writing
  have keyed' := ((Backing.Alike.refl keyed).others inside).keyed
  rw [run] at ended
  cases event with
  | rival => exact absurd trivial moves
  | fault f =>
    have fatal := persists.isConflict_of_error (sane f (by simp)) ended
    simp [fatal] at conflict
  | own =>
    obtain ⟨r, b', run', keyed'', -, swapped⟩ :=
      Backing.run_write_cells keyed' org s.encode (some stored.version)
    have accessed : (Program.write org s.encode (some stored.version) fun r =>
        goOn (Committed.ofReply org s lost r)).access (b.others inside)
          = (goOn (Committed.ofReply org s lost r), b') := by
      rw [Program.access, run']
    rw [Program.after, accessed] at ended
    -- anything but a conflict would be the result
    obtain f | version | actual := r
    · have final := persists.isConflict_of_error (Cells.write_isConflict swapped) ended
      simp [final] at conflict
    · exact absurd ended persists.ok_ne_error
    · refine ⟨inside, rest, b', rfl, rivals, ?_, accessed, keyed'', ended⟩
      -- had nobody landed, the version that was read would still be there
      by_contra none
      obtain ⟨-, same⟩ := Program.cells_others keyed (Nat.eq_zero_of_not_pos none) rivals
      obtain ⟨found, read, other⟩ := Cells.write_eq_conflict swapped
      obtain rfl := Except.ok.inj ((Cells.read_eq_ok_some.mpr (same.trans held)).symm.trans read)
      exact other rfl

/-- After its read a commit of changes has failed for good, or is about to write over what it has
read. -/
lemma Committed.afterRead_cases (changes : ms ≠ []) (cs : Cells) (org : String) :
    (∃ f, f.isConflict = false
        ∧ Committed.afterRead org ms (Clerk.ofReply org (cs.read org)) = .done (.error f))
      ∨ ∃ (stored : Stored) (s : Schema), cs org = some stored.cell
        ∧ Committed.afterRead org ms (Clerk.ofReply org (cs.read org))
          = writing org s (some stored.version) (.conflict org (some stored.version)) := by
  cases read : cs.read org with
  | error f => exact .inl ⟨f, Cells.read_isConflict read, rfl⟩
  | ok found =>
    cases found with
    | none => exact .inl ⟨_, rfl, rfl⟩
    | some stored =>
      simp only [Clerk.ofReply]
      cases decoded : schemaOf org stored with
      | error f => exact .inl ⟨f, schemaOf_isConflict decoded, rfl⟩
      | ok s =>
        simp only [Except.map, afterRead, List.isEmpty_iff, changes, if_false]
        cases s.applyAll ms with
        | error rejection => exact .inl ⟨_, rfl, rfl⟩
        | ok s' => exact .inr ⟨stored, s', Cells.read_eq_ok_some.mp read, rfl⟩

/-- An attempt that is lost to a conflict has been overtaken, and what goes on after it starts from
the store that it leaves. -/
lemma Persists.attempt_overtaken (persists : Persists goOn) (keyed : b.Keyed) (sane : Sane es)
    (changes : ms ≠ []) {p : Program (Except RegistryError β)}
    (attempt : p = ExceptT.run (commitChanges org ms) >>= goOn)
    (ended : (p.among b es).1.result? = some (.error e)) (conflict : e.isConflict = true) :
    ∃ lost b' rest, lost.isConflict = true ∧ b'.Keyed ∧ Sane rest
      ∧ ((goOn (.error lost)).among b' rest).1.result? = some (.error e)
      ∧ ∀ n, Overtaken org n (goOn (.error lost)) b' rest → Overtaken org (n + 1) p b es := by
  rw [run_commitChanges, Program.read_bind] at attempt
  rcases Program.among_cases ended with rfl | ⟨before, event, rest, rfl, rivals, moves, run⟩
  · cases attempt
  subst attempt
  have keyed' := ((Backing.Alike.refl keyed).others before).keyed
  rw [run] at ended
  cases event with
  | rival => exact absurd trivial moves
  | fault f =>
    have fatal := persists.isConflict_of_error (sane f (by simp)) ended
    simp [fatal] at conflict
  | own =>
    have accessed : (Program.read org fun r => Committed.afterRead org ms (Clerk.ofReply org r)
        >>= goOn).access (b.others before)
          = (Committed.afterRead org ms (Clerk.ofReply org ((b.others before).cells.read org))
            >>= goOn, b.others before) :=
      Program.access_read org _ _
    rw [Program.after, accessed] at ended
    -- a conflict can come from the write alone, which is over what the read has found
    rcases Committed.afterRead_cases changes (b.others before).cells org with
      ⟨f, fatal, stops⟩ | ⟨stored, s, held, writes⟩
    · rw [stops, Program.done_bind] at ended
      have final := persists.isConflict_of_error fatal ended
      simp [final] at conflict
    · rw [writes] at ended accessed
      obtain ⟨inside, rest, b', rfl, rivals', landed, wrote, keyed'', ended'⟩ :=
        persists.writing_overtaken keyed' sane.append.cons held rfl ended conflict
      refine ⟨_, b', rest, rfl, keyed'', sane.append.cons.append.cons, ended', fun n more => ?_⟩
      exact .again (Program.among_rivals rivals _ b) accessed rivals' landed wrote more

/-- What goes on after an attempt when so many more are left. -/
def Retryer.resume (attempt : Program (Except RegistryError Committed)) (f : Committed → β)
    (n : ℕ) : Except RegistryError Committed → Program (Except RegistryError β)
  | .ok c => .done (.ok (f c))
  | .error e =>
    if e.isConflict then loop attempt n e >>= fun r => .done (r.map f) else .done (.error e)

/-- A loop with an attempt left makes it and goes on with what came of it. -/
lemma Retryer.loop_succ (attempt : Program (Except RegistryError Committed)) (f : Committed → β)
    (n : ℕ) (last : RegistryError) :
    (loop attempt (n + 1) last >>= fun r => .done (r.map f)) = attempt >>= resume attempt f n := by
  rw [loop, Program.bind_assoc]
  congr 1
  funext r
  cases r with
  | ok c => rfl
  | error e =>
    simp only [resume]
    split <;> rfl

/-- A loop persists until its attempts are used up. -/
lemma Retryer.resume_persists (attempt : Program (Except RegistryError Committed))
    (f : Committed → β) (n : ℕ) : Persists (resume attempt f n) := by
  refine ⟨fun c => ⟨f c, rfl⟩, fun e fatal => ?_⟩
  simp [resume, fatal]

/-- Attempts that end in a conflict have all been overtaken. -/
lemma loop_overtaken (keyed : b.Keyed) (sane : Sane es) (changes : ms ≠ []) {n : ℕ}
    {last : RegistryError} {f : Committed → β}
    (ended : ((Retryer.loop (ExceptT.run (commitChanges org ms)) n last >>= fun r =>
      .done (r.map f)).among b es).1.result? = some (.error e)) (conflict : e.isConflict = true) :
    Overtaken org n (Retryer.loop (ExceptT.run (commitChanges org ms)) n last >>= fun r =>
      .done (r.map f)) b es := by
  induction n generalizing b es last with
  | zero => exact .never
  | succ n ih =>
    rw [Retryer.loop_succ] at ended ⊢
    obtain ⟨lost, b', rest, again, keyed', sane', ended', more⟩ :=
      (Retryer.resume_persists _ f n).attempt_overtaken keyed sane changes rfl ended conflict
    refine more n ?_
    simp only [Retryer.resume, again, if_true] at ended' ⊢
    exact ih keyed' sane' ended'

end Attempts

/-! ## Updates -/

/-- Changes of an organization that are made again after a conflict, by a caller or by the handler
of requests. -/
inductive Update where
  | direct (retryer : Retryer) (org : String) (mutations : List Mutation)
  | request (retryer : Retryer) (request : Request)

namespace Update

/-- The action of an update. -/
def action : Update → Action Response
  | .direct retryer org ms => do
    let c ← ExceptT.mk (retryer.run (ExceptT.run (commitChanges org ms)))
    return c.response
  | .request retryer asked => handle retryer asked

/-- The accesses of an update. -/
def program (u : Update) : Program (Except RegistryError Response) :=
  ExceptT.run u.action

/-- An update makes some changes of an organization, and tries as often as this. -/
def Tries (org : String) (n : ℕ) : Update → Prop
  | .direct retryer org' ms => org' = org ∧ ms ≠ [] ∧ retryer.attempts = n
  | .request retryer asked =>
    (∃ ms target, asked.plan = .ok (.update org ms target) ∧ ms ≠ []) ∧ retryer.attempts = n

variable {u : Update} {org : String} {n : ℕ}

/-- An update is honest. -/
lemma honest (u : Update) : Honest Response.stored? none u.program := by
  cases u with
  | direct retryer org ms =>
    exact Honest.map ((honest_commitChanges org ms).loop _ _) Committed.stored?_response
  | request retryer asked => exact honest_handle retryer asked

/-- The handler makes the changes of a request as a caller makes them. -/
lemma action_request {retryer : Retryer} {asked : Request} {ms : List Mutation}
    {target : Option Target} (planned : asked.plan = .ok (.update org ms target))
    (changes : ms ≠ []) : (request retryer asked).action = (direct retryer org ms).action := by
  have some : ms.isEmpty = false := by simpa using changes
  have handled : handle retryer asked = (Plan.update org ms target).perform retryer := by
    rw [handle, planned]
    rfl
  simp only [action, handled, Plan.perform, some]
  rfl

/-- A direct update retries its changes. -/
lemma program_direct (retryer : Retryer) (org : String) (ms : List Mutation) :
    (direct retryer org ms).program
      = retryer.run (ExceptT.run (commitChanges org ms)) >>= fun r =>
        .done (r.map Committed.response) := by
  rw [program, action, ExceptT.run_bind]
  refine congrArg (retryer.run _ >>= ·) (funext fun r => ?_)
  cases r <;> rfl

/-- An update is attempts whose result is put into a response. -/
lemma Tries.program_eq (tries : u.Tries org n) : ∃ ms last, ms ≠ []
    ∧ u.program = Retryer.loop (ExceptT.run (commitChanges org ms)) n last >>= fun r =>
      .done (r.map Committed.response) := by
  cases u with
  | direct retryer org' ms =>
    obtain ⟨rfl, changes, rfl⟩ := tries
    exact ⟨ms, _, changes, program_direct retryer org' ms⟩
  | request retryer asked =>
    obtain ⟨⟨ms, target, planned, changes⟩, rfl⟩ := tries
    have same : (request retryer asked).program = (direct retryer org ms).program :=
      congrArg ExceptT.run (action_request planned changes)
    exact ⟨ms, _, changes, same.trans (program_direct retryer org ms)⟩

/-- An update that fails for a lost race was overtaken in every attempt. -/
lemma Tries.overtaken (tries : u.Tries org n) {b : Backing} (keyed : b.Keyed) {es : List Event}
    (sane : Sane es) {e : RegistryError}
    (ended : (u.program.among b es).1.result? = some (.error e))
    (conflict : e.isConflict = true) : Overtaken org n u.program b es := by
  obtain ⟨ms, last, changes, eq⟩ := tries.program_eq
  rw [eq] at ended ⊢
  exact loop_overtaken keyed sane changes ended conflict

end Update

end MetricRegistry
