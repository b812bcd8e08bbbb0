import Mathlib.Data.List.Induction
import MetricRegistry.Proofs.Catalog.RoundTrip
import MetricRegistry.Proofs.Catalog.WellFormed
import MetricRegistry.Proofs.Registry.Interleaving

/-!
# No change is lost

Clients that share a store overtake each other between reading and writing, and yet every
organization has one history: `Histories` lists the catalogs that it has had, and a store shows the
last of them. `Inv` ties the store, the clients in flight and the calls that have returned to such
histories, and `Inv.access` keeps it through every access of every client, whoever comes next. A
client that is about to write holds a catalog that comes of one in the history, under the version
that this has there, so the write takes place only if that is still the last one.
`commits_serializable` is what follows for the calls.
-/

namespace MetricRegistry

open Catalog

/-! ## Histories -/

/-- The catalogs that each organization has had, the first one first. -/
abbrev Histories := String → List Schema

/-- What a store shows of an organization with a history. -/
def shown (ds : List Schema) : Option Stored :=
  ds.getLast?.map fun d => ⟨d.encode, ds.length - 1⟩

section Histories

variable {ds : List Schema} {h h' : Histories} {org : String} {d : Schema} {k : ℕ}

/-- The last of some catalogs is shown, with their number as its version. -/
lemma shown_append : shown (ds ++ [d]) = some ⟨d.encode, ds.length⟩ := by
  simp [shown]

/-- Nothing is shown of an organization without a history, and else the last catalog. -/
lemma shown_cases (ds : List Schema) :
    (ds = [] ∧ shown ds = none)
      ∨ ∃ k d, ds.length = k + 1 ∧ ds[k]? = some d ∧ shown ds = some ⟨d.encode, k⟩ := by
  induction ds using List.reverseRecOn with
  | nil => exact .inl ⟨rfl, rfl⟩
  | append_singleton ds d => exact .inr ⟨ds.length, d, by simp, by simp, shown_append⟩

/-- A version is shown if there is one catalog more. -/
lemma shown_version : (shown ds).map Stored.version = some k ↔ ds.length = k + 1 := by
  obtain ⟨rfl, none⟩ | ⟨j, d, length, -, some⟩ := shown_cases ds
  · simp [none]
  · simp [some, length]

/-- No version is shown if there is no catalog. -/
lemma shown_version_none : (shown ds).map Stored.version = none ↔ ds = [] := by
  obtain ⟨rfl, none⟩ | ⟨j, d, length, -, some⟩ := shown_cases ds
  · simp [none]
  · have ne : ds ≠ [] := by
      rintro rfl
      simp at length
    simp [some, ne]

/-- Every history is continued. -/
def Grows (h h' : Histories) : Prop :=
  ∀ org, h org <+: h' org

/-- A history with one more catalog. -/
def Histories.push (h : Histories) (org : String) (d : Schema) : Histories :=
  Function.update h org (h org ++ [d])

/-- A catalog stays at its place in a history that grows. -/
lemma Grows.getElem? (grows : Grows h h') (here : (h org)[k]? = some d) :
    (h' org)[k]? = some d := by
  obtain ⟨rest, eq⟩ := grows org
  obtain ⟨lt, -⟩ := List.getElem?_eq_some_iff.mp here
  rw [← eq, List.getElem?_append_left lt, here]

/-- A history that grows gets no shorter. -/
lemma Grows.length_le (grows : Grows h h') : (h org).length ≤ (h' org).length :=
  (grows org).length_le

/-- A history grows by a catalog. -/
lemma grows_push : Grows h (h.push org d) := by
  intro other
  by_cases eq : other = org
  · obtain rfl := eq
    simp [Histories.push]
  · simp [Histories.push, Function.update_of_ne eq]

end Histories

variable {h h' : Histories}

/-! ## The calls that have returned -/

/-- What a commit gave that succeeded. -/
def Record.committed? : Record → Option Committed
  | ⟨.create _, _, .ok c⟩ => some c
  | ⟨.change _ _, _, .ok c⟩ => some c
  | _ => none

/-- The catalog and the version that a commit has stored for an organization. -/
def Record.landed (org : String) (r : Record) : Option (Schema × ℕ) :=
  match r.committed? with
  | some c => if c.changed ∧ c.org = org then some (c.schema, c.version) else none
  | none => none

/-- What a call can have found and given, by the histories of the organizations. -/
inductive Explained (h : Histories) : Record → Prop where
  /-- The organization was created with the first catalog. -/
  | created {org d} :
    (h org)[0]? = some d →
    Explained h ⟨.create org, none, .ok ⟨org, 0, d, true⟩⟩
  | invalid {org violation} :
    Schema.ofOrg org = .error violation →
    Explained h ⟨.create org, none, .error (.rejected (.invalid violation))⟩
  /-- Another call had created it. -/
  | taken {org} :
    h org ≠ [] →
    Explained h ⟨.create org, none, .error (.rejected (.alreadyExists .org org))⟩
  /-- A clerk shows a catalog and its version. -/
  | seen {org k d} :
    (h org)[k]? = some d →
    Explained h ⟨.look org, some (some ⟨d.encode, k⟩), .ok ⟨k, d⟩⟩
  | unseen {org} :
    Explained h ⟨.look org, some none, .error (.rejected (.notFound .org org))⟩
  /-- The changes were made of a catalog, and the next one came of them. -/
  | changed {org ms k d d'} :
    (h org)[k]? = some d →
    (h org)[k + 1]? = some d' →
    ms ≠ [] →
    d.applyAll ms = .ok d' →
    Explained h ⟨.change org ms, some (some ⟨d.encode, k⟩), .ok ⟨org, k + 1, d', true⟩⟩
  /-- There was nothing to change. -/
  | unchanged {org k d} :
    (h org)[k]? = some d →
    Explained h ⟨.change org [], some (some ⟨d.encode, k⟩), .ok ⟨org, k, d, false⟩⟩
  | absent {org ms} :
    Explained h ⟨.change org ms, some none, .error (.rejected (.notFound .org org))⟩
  /-- The catalog that was read does not allow the changes. -/
  | refused {org ms k d rejection} :
    (h org)[k]? = some d →
    d.applyAll ms = .error rejection →
    Explained h ⟨.change org ms, some (some ⟨d.encode, k⟩), .error (.rejected rejection)⟩
  /-- Another commit came between the read and the write. -/
  | overtaken {org ms k d} :
    (h org)[k]? = some d →
    k + 1 < (h org).length →
    Explained h ⟨.change org ms, some (some ⟨d.encode, k⟩), .error (.conflict org (some k))⟩
  /-- The next version does not fit into a table's column. -/
  | full {org ms k d} :
    (h org)[k]? = some d →
    UInt64.size / 2 ≤ k + 1 →
    Explained h ⟨.change org ms, some (some ⟨d.encode, k⟩),
      .error (.corruption (.versionTooLarge (k + 1)))⟩

/-- What explains a call does so when histories are continued. -/
lemma Explained.mono (grows : Grows h h') {r : Record} (explained : Explained h r) :
    Explained h' r := by
  cases explained with
  | created here => exact .created (grows.getElem? here)
  | invalid violated => exact .invalid violated
  | @taken org some =>
    refine .taken fun none => some (List.eq_nil_of_length_eq_zero ?_)
    have le : (h org).length ≤ (h' org).length := grows.length_le
    rw [none] at le
    exact Nat.le_zero.mp le
  | seen here => exact .seen (grows.getElem? here)
  | unseen => exact .unseen
  | changed here next some applied =>
    exact .changed (grows.getElem? here) (grows.getElem? next) some applied
  | unchanged here => exact .unchanged (grows.getElem? here)
  | absent => exact .absent
  | refused here failed => exact .refused (grows.getElem? here) failed
  | overtaken here lt =>
    exact .overtaken (grows.getElem? here) (Nat.lt_of_lt_of_le lt grows.length_le)
  | full here large => exact .full (grows.getElem? here) large

/-! ## The clients in flight -/

/-- Where a client can be in its call. One that is about to write changes has read a catalog of the
history and expects its version. -/
inductive Ready (h : Histories) : Client → Prop where
  | finished : Ready h .finished
  | creating {org s resume} :
    Schema.ofOrg org = .ok s →
    Ready h (.writing (.create org) none org s.encode none
      (fun r => .done (Committed.ofReply org s (.rejected (.alreadyExists .org org)) r)) resume)
  | looking {org resume} :
    Ready h (.reading (.look org) org (fun r => .done (Clerk.ofReply org r)) resume)
  | opening {org ms resume} :
    Ready h (.reading (.change org ms) org
      (fun r => Committed.afterRead org ms (Clerk.ofReply org r)) resume)
  | changing {org ms k d s resume} :
    (h org)[k]? = some d →
    ms ≠ [] →
    d.applyAll ms = .ok s →
    Ready h (.writing (.change org ms) (some (some ⟨d.encode, k⟩)) org s.encode (some k)
      (fun r => .done (Committed.ofReply org s (.conflict org (some k)) r)) resume)

/-- A client is where it can be when histories are continued. -/
lemma Ready.mono (grows : Grows h h') {client : Client} (ready : Ready h client) :
    Ready h' client := by
  cases ready with
  | finished => exact .finished
  | creating started => exact .creating started
  | looking => exact .looking
  | opening => exact .opening
  | changing here some applied => exact .changing (grows.getElem? here) some applied

/-- A session up to its first access leaves calls that are explained and have stored nothing, and a
client that is where it can be. -/
lemma settle_ready (h : Histories) (s : Session Unit) :
    (∀ r ∈ s.settle.1, Explained h r ∧ ∀ org, r.landed org = none) ∧ Ready h s.settle.2 := by
  induction s with
  | done a => exact ⟨by simp [Session.settle], .finished⟩
  | call c resume ih =>
    cases c with
    | create org =>
      cases started : Schema.ofOrg org with
      | error violation =>
        -- the one kind of call that returns without an access
        have settled : (Session.call (.create org) resume).settle
            = (⟨.create org, none, .error (.rejected (.invalid violation))⟩
                :: (resume (.error (.rejected (.invalid violation)))).settle.1,
              (resume (.error (.rejected (.invalid violation)))).settle.2) := by
          simp only [Session.settle, Call.program, Call.action, run_commitNew, started, Call.await]
        obtain ⟨each, ready⟩ := ih (.error (.rejected (.invalid violation)))
        rw [settled]
        refine ⟨fun r mem => ?_, ready⟩
        rcases List.mem_cons.mp mem with rfl | mem
        · exact ⟨.invalid started, fun _ => rfl⟩
        · exact each r mem
      | ok s =>
        simp only [Session.settle, Call.program, Call.action, run_commitNew, started, Call.await,
          Committed.writing]
        exact ⟨by simp, .creating started⟩
    | change org ms =>
      simp only [Session.settle, Call.program, Call.action, run_commitChanges, Call.await]
      exact ⟨by simp, .opening⟩
    | look org =>
      simp only [Session.settle, Call.program, Call.action, run_opened, Call.await]
      exact ⟨by simp, .looking⟩

/-! ## The invariant -/

/-- What ties a world to histories. -/
structure Inv (w : World) (h : Histories) : Prop where
  sound : w.store.Sound
  /-- The store shows the last catalog of every history. -/
  view : w.store.view = fun org => shown (h org)
  own : ∀ org, ∀ d ∈ h org, d.Unambiguous ∧ d.orgId = org
  first : ∀ org d, (h org)[0]? = some d → Schema.ofOrg org = .ok d
  /-- The commits that have stored something are the histories, step by step. -/
  landed : ∀ org, w.records.filterMap (Record.landed org) = (h org).zipIdx
  explained : ∀ r ∈ w.records, Explained h r
  ready : ∀ client ∈ w.clients, Ready h client

variable {w : World} {b : Backing} {record : Record}

/-- A client that goes on with a call leaves everything as it was. -/
lemma Inv.move (inv : Inv w h) {client : Client} (ready : Ready h client) (i : ℕ) :
    Inv (w.proceed i w.store ([], client)) h := by
  refine { inv with landed := ?_, explained := ?_, ready := fun other mem => ?_ }
  · simpa [World.proceed] using inv.landed
  · simpa [World.proceed] using inv.explained
  · rcases List.mem_or_eq_of_mem_set mem with mem | rfl
    · exact inv.ready other mem
    · exact ready

/-- A call returns: what it has stored, if anything, is the next step of a history. -/
lemma Inv.return (inv : Inv w h) (grows : Grows h h') (sound : b.Sound)
    (view : b.view = fun org => shown (h' org))
    (own : ∀ org, ∀ d ∈ h' org, d.Unambiguous ∧ d.orgId = org)
    (first : ∀ org d, (h' org)[0]? = some d → Schema.ofOrg org = .ok d)
    (explained : Explained h' record)
    (landed : ∀ org, (h' org).zipIdx = (h org).zipIdx ++ (record.landed org).toList) (i : ℕ)
    (s : Session Unit) : Inv (w.proceed i b (record :: s.settle.1, s.settle.2)) h' := by
  obtain ⟨settled, ready⟩ := settle_ready h' s
  refine ⟨sound, view, own, first, fun org => ?_, fun r mem => ?_, fun client mem => ?_⟩
  · have nothing : s.settle.1.filterMap (Record.landed org) = [] :=
      List.filterMap_eq_nil_iff.mpr fun r mem => (settled r mem).2 org
    rw [landed, World.proceed, List.filterMap_append, inv.landed, List.filterMap_cons, nothing]
    cases record.landed org <;> rfl
  · rcases List.mem_append.mp mem with mem | mem
    · exact (inv.explained r mem).mono grows
    · rcases List.mem_cons.mp mem with rfl | mem
      · exact explained
      · exact (settled r mem).1
  · rcases List.mem_or_eq_of_mem_set mem with mem | rfl
    · exact (inv.ready client mem).mono grows
    · exact ready

/-- A call that has stored nothing returns. -/
lemma Inv.report (inv : Inv w h) (sound : b.Sound) (view : b.view = w.store.view)
    (explained : Explained h record) (nothing : ∀ org, record.landed org = none) (i : ℕ)
    (s : Session Unit) : Inv (w.proceed i b (record :: s.settle.1, s.settle.2)) h :=
  inv.return (fun _ => List.prefix_refl _) sound (view.trans inv.view) inv.own inv.first explained
    (fun org => by simp [nothing org]) i s

/-- A commit that has stored a catalog returns. -/
lemma Inv.land (inv : Inv w h) {org : String} {d : Schema} (sound : b.Sound)
    (view : b.view = Function.update w.store.view org (some ⟨d.encode, (h org).length⟩))
    (own : d.Unambiguous ∧ d.orgId = org) (first : h org = [] → Schema.ofOrg org = .ok d)
    (explained : Explained (h.push org d) record)
    (landed : ∀ other, record.landed other
      = if org = other then some (d, (h org).length) else none) (i : ℕ) (s : Session Unit) :
    Inv (w.proceed i b (record :: s.settle.1, s.settle.2)) (h.push org d) := by
  refine inv.return grows_push sound ?_ ?_ ?_ explained ?_ i s
  · funext other
    rw [view, inv.view]
    by_cases eq : other = org
    · obtain rfl := eq
      simp [Histories.push, shown_append]
    · simp [Histories.push, Function.update_of_ne eq]
  · intro other d' mem
    by_cases eq : other = org
    · obtain rfl := eq
      rw [Histories.push, Function.update_self] at mem
      rcases List.mem_append.mp mem with mem | mem
      · exact inv.own other d' mem
      · rwa [List.mem_singleton.mp mem]
    · rw [Histories.push, Function.update_of_ne eq] at mem
      exact inv.own other d' mem
  · intro other d' here
    by_cases eq : other = org
    · obtain rfl := eq
      rw [Histories.push, Function.update_self] at here
      by_cases none : h other = []
      · obtain rfl : d = d' := by simpa [none] using here
        exact first none
      · rw [List.getElem?_append_left (List.length_pos_iff.mpr none)] at here
        exact inv.first other d' here
    · rw [Histories.push, Function.update_of_ne eq] at here
      exact inv.first other d' here
  · intro other
    by_cases eq : other = org
    · obtain rfl := eq
      simp [Histories.push, landed, List.zipIdx_append]
    · simp [Histories.push, landed, Function.update_of_ne eq, Ne.symm eq]

/-- The version that is stored is the one that the history shows. -/
lemma Inv.version (inv : Inv w h) (org : String) :
    w.store.view.version org = (shown (h org)).map Stored.version := by
  rw [View.version, inv.view]

/-- What is read of an organization with a history: the last catalog, or that there is none. -/
lemma Inv.ofReply (inv : Inv w h) (org : String) :
    (w.store.view org = none
        ∧ Clerk.ofReply org (.ok (w.store.view org)) = .error (.rejected (.notFound .org org)))
      ∨ ∃ k d, (h org)[k]? = some d ∧ w.store.view org = some ⟨d.encode, k⟩
        ∧ Clerk.ofReply org (.ok (w.store.view org)) = .ok ⟨k, d⟩ := by
  rw [inv.view]
  obtain ⟨-, none⟩ | ⟨k, d, -, here, some⟩ := shown_cases (h org)
  · exact .inl ⟨none, by simp [none, Clerk.ofReply]⟩
  · obtain ⟨unambiguous, own⟩ := inv.own org d (List.mem_of_getElem? here)
    have decoded := Schema.decode_encode (Schema.check_eq_ok.mpr unambiguous)
    refine .inr ⟨k, d, here, some, ?_⟩
    simp [some, Clerk.ofReply, schemaOf, decoded, own, bind, Except.bind, pure, Except.pure,
      Except.map]

/-! ## Every access keeps it -/

variable {org : String} {reply : Except RegistryError Outcome}

/-- The reply to a creation keeps the invariant. -/
lemma Inv.replyCreate (inv : Inv w h) {s : Schema} (started : Schema.ofOrg org = .ok s)
    (sound : b.Sound) (written : Written w.store.view org s.encode none reply b.view) (i : ℕ)
    (rest : Session Unit) :
    ∃ h', Inv (w.proceed i b
      (⟨.create org, none, Committed.ofReply org s (.rejected (.alreadyExists .org org)) reply⟩
        :: rest.settle.1, rest.settle.2)) h' := by
  have version := inv.version org
  obtain ⟨wellFormed, own⟩ := Schema.ofOrg_wellFormed started
  generalize after : b.view = v at written
  cases written with
  | committed free =>
    have none : h org = [] := shown_version_none.mp (version.symm.trans free)
    have length : (h org).length = 0 := by simp [none]
    refine ⟨_, inv.land sound ?_ ⟨wellFormed.unambiguous, own⟩ (fun _ => started) ?_ ?_ i rest⟩
    · rw [after, length]
      rfl
    · exact .created (by simp [Histories.push, none])
    · intro other
      simp [Record.landed, Record.committed?, Committed.ofReply, nextVersion, length]
  | conflict taken =>
    have some : h org ≠ [] := fun none =>
      taken (version.trans (shown_version_none.mpr none))
    exact ⟨h, inv.report sound after (.taken some) (fun _ => rfl) i rest⟩
  | failed large => exact absurd large (by decide)

/-- The reply to a change keeps the invariant. -/
lemma Inv.replyChange (inv : Inv w h) {ms : List Mutation} {k : ℕ} {d s : Schema}
    (here : (h org)[k]? = some d) (nonempty : ms ≠ []) (applied : d.applyAll ms = .ok s)
    (sound : b.Sound) (written : Written w.store.view org s.encode (some k) reply b.view)
    (i : ℕ) (rest : Session Unit) :
    ∃ h', Inv (w.proceed i b
      (⟨.change org ms, some (some ⟨d.encode, k⟩),
          Committed.ofReply org s (.conflict org (some k)) reply⟩
        :: rest.settle.1, rest.settle.2)) h' := by
  have version := inv.version org
  obtain ⟨lt, -⟩ := List.getElem?_eq_some_iff.mp here
  obtain ⟨unambiguous, own⟩ := inv.own org d (List.mem_of_getElem? here)
  generalize after : b.view = v at written
  cases written with
  | committed last =>
    -- the version expected is still that of the last catalog, so the changes were made of that
    have length : (h org).length = k + 1 := shown_version.mp (version.symm.trans last)
    have continued : (h.push org s org)[k]? = some d := grows_push.getElem? here
    refine ⟨h.push org s, inv.land sound ?_ ?_ (fun none => ?_) ?_ ?_ i rest⟩
    · rw [after, length]
      rfl
    · exact ⟨Schema.applyAll_unambiguous unambiguous applied,
        (Schema.applyAll_orgId applied).trans own⟩
    · simp [none] at length
    · exact .changed continued (by simp [Histories.push, ← length]) nonempty applied
    · intro other
      simp [Record.landed, Record.committed?, Committed.ofReply, nextVersion, length]
  | conflict other =>
    -- the catalog that was read is in the history but not the last one
    have overtaken : k + 1 < (h org).length := by
      have ne : (h org).length ≠ k + 1 := fun length =>
        other (version.trans (shown_version.mpr length))
      omega
    exact ⟨h, inv.report sound after (.overtaken here overtaken) (fun _ => rfl) i rest⟩
  | failed large => exact ⟨h, inv.report sound after (.full here large) (fun _ => rfl) i rest⟩

/-- The reply to a read keeps the invariant. -/
lemma Inv.replyOpen (inv : Inv w h) {ms : List Mutation} (i : ℕ)
    (resume : Except RegistryError Committed → Session Unit) :
    Inv (w.proceed i w.store (Call.goOn (.change org ms) (some (w.store.view org))
      (Committed.afterRead org ms (Clerk.ofReply org (.ok (w.store.view org)))) resume)) h := by
  rcases inv.ofReply org with ⟨none, notFound⟩ | ⟨k, d, read, shown, found⟩
  · rw [notFound, none]
    exact inv.report inv.sound rfl .absent (fun _ => rfl) i _
  rw [found, shown]
  simp only [Committed.afterRead]
  split
  case isTrue empty =>
    obtain rfl := List.isEmpty_iff.mp empty
    exact inv.report inv.sound rfl (.unchanged read) (fun _ => rfl) i _
  case isFalse nonempty =>
    cases applied : d.applyAll ms with
    | error rejection =>
      exact inv.report inv.sound rfl (.refused read applied) (fun _ => rfl) i _
    | ok s =>
      exact inv.move (.changing read (fun none => nonempty (by simp [none])) applied) i

/-- Every access of every client keeps the invariant. -/
lemma Inv.access (inv : Inv w h) (i : ℕ) : ∃ h', Inv (w.access i) h' := by
  cases here : w.clients[i]? with
  | none => exact ⟨h, by simpa [World.access, here] using inv⟩
  | some client =>
    -- where the client is in its call says what it asks of the store, and what it does then
    have ready := inv.ready client (List.mem_of_getElem? here)
    simp only [World.access, here]
    cases ready with
    | finished => exact ⟨h, inv⟩
    | @creating org s resume started =>
      obtain ⟨reply, b, run, sound, written⟩ := Backing.run_write inv.sound org s.encode none
      simp only [run]
      exact inv.replyCreate started sound written i _
    | @looking org resume =>
      simp only [Backing.run_read inv.sound]
      rcases inv.ofReply org with ⟨none, notFound⟩ | ⟨k, d, read, shown, found⟩
      · rw [notFound, none]
        exact ⟨h, inv.report inv.sound rfl .unseen (fun _ => rfl) i _⟩
      · rw [found, shown]
        exact ⟨h, inv.report inv.sound rfl (.seen read) (fun _ => rfl) i _⟩
    | @opening org ms resume =>
      simp only [Backing.run_read inv.sound]
      exact ⟨h, inv.replyOpen i resume⟩
    | @changing org ms k d s resume read nonempty applied =>
      obtain ⟨reply, b, run, sound, written⟩ :=
        Backing.run_write inv.sound org s.encode (some k)
      simp only [run]
      exact inv.replyChange read nonempty applied sound written i _

/-- The invariant holds at first. -/
lemma inv_start (empty : b.IsEmpty) (sessions : List (Session Unit)) :
    Inv (World.start b sessions) fun _ => [] := by
  obtain ⟨sound, view⟩ := empty.sound
  have settled : ∀ r ∈ (World.start b sessions).records,
      Explained (fun _ => []) r ∧ ∀ org, r.landed org = none := by
    intro r mem
    obtain ⟨s, -, mem⟩ := List.mem_flatMap.mp mem
    exact (settle_ready _ s).1 r mem
  refine ⟨sound, view, by simp, by simp, fun org => ?_, fun r mem => (settled r mem).1, ?_⟩
  · exact List.filterMap_eq_nil_iff.mpr fun r mem => (settled r mem).2 org
  · intro client mem
    obtain ⟨s, -, rfl⟩ := List.mem_map.mp mem
    exact (settle_ready _ s).2

/-- Whatever the order of their accesses, clients of a store that was empty keep the invariant. -/
lemma inv_run (empty : b.IsEmpty) (sessions : List (Session Unit)) (schedule : List ℕ) :
    ∃ h, Inv ((World.start b sessions).run schedule) h := by
  suffices kept : ∀ w h, Inv w h → ∃ h', Inv (w.run schedule) h' from
    kept _ _ (inv_start empty sessions)
  induction schedule with
  | nil => exact fun _ h inv => ⟨h, inv⟩
  | cons i schedule ih =>
    intro w h inv
    obtain ⟨h', inv'⟩ := inv.access i
    exact ih _ h' inv'

/-! ## The main result -/

/-- The calls of a world have made one history of an organization. -/
structure Serial (w : World) (org : String) (ds : List Schema) : Prop where
  /-- What is stored at a version is the document of the last of as many catalogs. -/
  stored : ∀ document n, w.store.view org = some ⟨document, n⟩ ↔
    ds.length = n + 1 ∧ ∃ d, ds[n]? = some d ∧ document = d.encode
  first : ∀ d, ds[0]? = some d → Schema.ofOrg org = .ok d
  /-- One call has created the organization. -/
  creator : ∀ d, ds[0]? = some d → ∃! j : ℕ, ∃ c, w.records[j]? = some ⟨.create org, none, .ok c⟩
  /-- Every other catalog comes of the one before it by the changes of one commit, which read that
  one and is the only one that gave the version. -/
  step : ∀ k d d', ds[k]? = some d → ds[k + 1]? = some d' → ∃ (j : ℕ) (ms : List Mutation), ms ≠ []
    ∧ d.applyAll ms = .ok d'
    ∧ w.records[j]?
      = some ⟨.change org ms, some (some ⟨d.encode, k⟩), .ok ⟨org, k + 1, d', true⟩⟩
    ∧ ∀ (j' : ℕ) r c, w.records[j']? = some r → r.committed? = some c → c.org = org →
      c.changed = true → c.version = k + 1 → j' = j
  /-- The commits that have stored something are the steps, in the same order. -/
  landed : w.records.filterMap (Record.landed org) = ds.zipIdx

/-- Every catalog of the history was landed by a record. -/
lemma Inv.exists_landed (inv : Inv w h) {k : ℕ} {d : Schema} (here : (h org)[k]? = some d) :
    ∃ (j : ℕ) (r : Record),
      w.records[j]? = some r ∧ r.landed org = some (d, k) ∧ Explained h r := by
  have mem : (d, k) ∈ (h org).zipIdx := List.mem_zipIdx_iff_getElem?.mpr here
  rw [← inv.landed] at mem
  obtain ⟨r, rmem, landed⟩ := List.mem_filterMap.mp mem
  obtain ⟨j, found⟩ := List.mem_iff_getElem?.mp rmem
  exact ⟨j, r, found, landed, inv.explained r rmem⟩

/-- No two calls have stored the same version. -/
lemma Inv.landed_unique (inv : Inv w h) {j j' v : ℕ} {r r' : Record} {d d' : Schema}
    (found : w.records[j]? = some r) (found' : w.records[j']? = some r')
    (landed : r.landed org = some (d, v)) (landed' : r'.landed org = some (d', v)) : j = j' := by
  -- along the records the versions that were stored go up
  have increasing : ((h org).zipIdx.map Prod.snd).Pairwise (· < ·) := by
    rw [List.zipIdx_map_snd]
    exact List.pairwise_lt_range'
  rw [← inv.landed, List.pairwise_map, List.pairwise_filterMap, List.pairwise_iff_getElem]
    at increasing
  obtain ⟨lt, rfl⟩ := List.getElem?_eq_some_iff.mp found
  obtain ⟨lt', rfl⟩ := List.getElem?_eq_some_iff.mp found'
  rcases Nat.lt_trichotomy j j' with before | eq | after
  · exact absurd (increasing j j' lt lt' before _ landed _ landed') (Nat.lt_irrefl v)
  · exact eq
  · exact absurd (increasing j' j lt' lt after _ landed' _ landed) (Nat.lt_irrefl v)

/-- Where the invariant holds, the calls have made one history of each organization. -/
lemma Inv.serial (inv : Inv w h) (org : String) : Serial w org (h org) where
  stored document n := by
    have view : w.store.view org = shown (h org) := congrFun inv.view org
    rw [view]
    obtain ⟨none, nothing⟩ | ⟨k, d, length, here, something⟩ := shown_cases (h org)
    · rw [nothing, none]
      simp
    · rw [something]
      constructor
      · intro eq
        cases eq
        exact ⟨length, d, here, rfl⟩
      · rintro ⟨length', d', here', rfl⟩
        obtain rfl : k = n := by omega
        obtain rfl := Option.some.inj (here.symm.trans here')
        rfl
  first := inv.first org
  creator d here := by
    obtain ⟨j, r, found, landed, explained⟩ := inv.exists_landed here
    have once := landed
    cases explained <;> simp [Record.landed, Record.committed?] at landed
    case created own d' here' =>
      obtain ⟨rfl, rfl⟩ := landed
      refine ⟨j, ⟨_, found⟩, ?_⟩
      rintro j' ⟨c, found'⟩
      cases inv.explained _ (List.mem_of_getElem? found') with
      | @created _ d'' _ =>
        have also : Record.landed own ⟨.create own, none, .ok ⟨own, 0, d'', true⟩⟩
            = some (d'', 0) := by
          simp [Record.landed, Record.committed?]
        exact inv.landed_unique found' found also once
  step k d d' here next := by
    obtain ⟨j, r, found, landed, explained⟩ := inv.exists_landed next
    have once := landed
    cases explained <;> simp [Record.landed, Record.committed?] at landed
    case changed own ms k' e e' here' next' nonempty applied =>
      obtain ⟨rfl, rfl, rfl⟩ := landed
      obtain rfl := Option.some.inj (here.symm.trans here')
      refine ⟨j, ms, nonempty, applied, found, ?_⟩
      intro j' r' c found' committed org changed version
      have also : r'.landed own = some (c.schema, k' + 1) := by
        simp [Record.landed, committed, org, changed, version]
      exact inv.landed_unique found' found also once
  landed := inv.landed org

/-- Clients that begin with a store in which nothing is stored make their accesses in any order;
sessions are all that callers do, also those who try again and the handler of requests. Then every
organization has one history that the commits have made one by one, and every call that has
returned is explained by the histories and by what it found when it read. -/
theorem commits_serializable (empty : b.IsEmpty) (sessions : List (Session Unit))
    (schedule : List ℕ) :
    let w := (World.start b sessions).run schedule
    w.programs = schedule.foldl interleave (sessions.map Session.expand, b)
      ∧ (∃ h : Histories, (∀ org, Serial w org (h org)) ∧ ∀ r ∈ w.records, Explained h r)
      ∧ (∀ retryer org ms, (Retryer.run retryer (Session.ask (.change org ms))).expand
        = retryer.run (ExceptT.run (commitChanges org ms)))
      ∧ ∀ retryer request, Session.expand (ExceptT.run (Dialogue.handle retryer request))
        = ExceptT.run (handle retryer request) := by
  intro w
  refine ⟨World.run_programs b sessions schedule, ?_, Session.expand_retry, Dialogue.expand_handle⟩
  obtain ⟨h, inv⟩ := inv_run empty sessions schedule
  exact ⟨h, inv.serial, inv.explained⟩

/-- Two clients, one of which creates the organization that both change. -/
def rivals : List (Session Unit) :=
  [.call (.create "acme") fun _ => .call (.change "acme" [.createMetric "clicks" []]) fun _ =>
      .done (),
    .call (.change "acme" [.createMetric "views" []]) fun _ => .done ()]

/-- The second client reads before the first one writes, and its change is not made. -/
theorem commits_serializable_rivals :
    ∃ ds, Serial ((World.start (.memory []) rivals).run [0, 0, 1, 0, 1]) "acme" ds ∧ ds.length = 2
      ∧ ((World.start (.memory []) rivals).run [0, 0, 1, 0, 1]).records.map Record.call
        = [.create "acme", .change "acme" [.createMetric "clicks" []],
          .change "acme" [.createMetric "views" []]] := by
  obtain ⟨-, ⟨h, serial, -⟩, -⟩ :=
    commits_serializable (b := .memory []) rfl rivals [0, 0, 1, 0, 1]
  have version : (((World.start (.memory []) rivals).run [0, 0, 1, 0, 1]).store.view "acme").map
      Stored.version = some 1 := by
    decide +kernel
  obtain ⟨⟨document, n⟩, here, rfl⟩ := Option.map_eq_some_iff.mp version
  exact ⟨h "acme", serial "acme", (((serial "acme").stored document 1).mp here).1,
    by decide +kernel⟩

end MetricRegistry
