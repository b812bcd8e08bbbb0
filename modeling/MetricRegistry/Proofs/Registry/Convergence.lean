import Mathlib.Data.Finset.Card
import MetricRegistry.Proofs.Registry.Overtaking

/-!
# Updates come through

Programs that share a store take turns. To each of them the turns of the others are writes of rivals
(`Program.history`), and an honest one lands once at most, as it is done then. So among as many
updates as each has attempts none is overtaken in all of them. `Update.converges` says that, and
what it takes for a single update to lose.
-/

namespace MetricRegistry

open Catalog

namespace Program

variable {α : Type}

/-! ## Turns -/

/-- Programs and their store after an access of one of them. -/
def turn (w : List (Program α) × Backing) (i : ℕ) : List (Program α) × Backing :=
  match w.1[i]? with
  | none => w
  | some p => (w.1.set i (p.access w.2).1, (p.access w.2).2)

/-- What a turn is to one of the programs. -/
def seen (i : ℕ) (w : List (Program α) × Backing) (j : ℕ) : List Event :=
  if j = i then [.own]
  else match w.1[j]? with
    | some (.write key document expected _) => [.rival key document expected]
    | _ => []

/-- What several turns are to one of the programs. -/
def history (i : ℕ) (w : List (Program α) × Backing) : List ℕ → List Event
  | [] => []
  | j :: js => seen i w j ++ history i (turn w j) js

variable {i : ℕ} {w : List (Program α) × Backing} {p : Program α}

/-- A program makes an access in its turn. -/
lemma turn_self (here : w.1[i]? = some p) :
    (turn w i).1[i]? = some (p.access w.2).1 ∧ (turn w i).2 = (p.access w.2).2 := by
  obtain ⟨lt, -⟩ := List.getElem?_eq_some_iff.mp here
  have moved : turn w i = (w.1.set i (p.access w.2).1, (p.access w.2).2) := by
    simp only [turn, here]
  rw [moved]
  exact ⟨List.getElem?_set_self lt, rfl⟩

/-- In the turn of another a program waits. -/
lemma turn_of_ne {j : ℕ} (ne : j ≠ i) (w : List (Program α) × Backing) :
    (turn w j).1[i]? = w.1[i]? := by
  unfold turn
  split
  · rfl
  · exact List.getElem?_set_ne ne

/-- A turn is for each program what it sees of it. -/
lemma turn_seen (here : w.1[i]? = some p) (j : ℕ) :
    (turn w j).1[i]? = some (p.among w.2 (seen i w j)).1
      ∧ (turn w j).2 = (p.among w.2 (seen i w j)).2 := by
  by_cases same : j = i
  · subst same
    simp only [seen, if_true]
    exact turn_self here
  · rw [turn_of_ne same, here, seen, if_neg same]
    cases there : w.1[j]? with
    | none => exact ⟨rfl, by simp only [turn, there]; rfl⟩
    | some q =>
      rw [(turn_self there).2]
      -- of what another does only its writes reach the store
      cases q with
      | done a => exact ⟨rfl, rfl⟩
      | read key resume => exact ⟨rfl, by rw [access_read]; rfl⟩
      | write key document expected resume => exact ⟨rfl, rfl⟩

/-- A program that takes turns with others is one among rivals. -/
lemma turns_history (here : w.1[i]? = some p) (js : List ℕ) :
    (js.foldl turn w).1[i]? = some (p.among w.2 (history i w js)).1 := by
  induction js generalizing w p with
  | nil => exact here
  | cons j js ih =>
    obtain ⟨first, store⟩ := turn_seen here j
    rw [List.foldl_cons, ih first, store, history, among_append]

/-- What a program sees of its history is sane. -/
lemma sane_history (i : ℕ) (w : List (Program α) × Backing) (js : List ℕ) :
    Sane (history i w js) := by
  intro e mem
  induction js generalizing w with
  | nil => cases mem
  | cons j js ih =>
    rw [history, List.mem_append] at mem
    rcases mem with mem | mem
    · unfold seen at mem
      split at mem
      · simp at mem
      · split at mem <;> simp at mem
    · exact ih _ mem

/-- A turn keeps the number of programs. -/
lemma length_turn (w : List (Program α) × Backing) (j : ℕ) :
    (turn w j).1.length = w.1.length := by
  unfold turn
  split
  · rfl
  · exact List.length_set

/-- Turns keep the number of programs. -/
lemma length_turns (w : List (Program α) × Backing) (js : List ℕ) :
    (js.foldl turn w).1.length = w.1.length := by
  induction js generalizing w with
  | nil => rfl
  | cons j js ih => rw [List.foldl_cons, ih, length_turn]

end Program

/-! ## Landings of honest programs -/

/-- A program that is done, or that reports what it writes. -/
def LandsOnce {α : Type} (reported : α → Option (String × Version))
    (p : Program (Except RegistryError α)) : Prop :=
  (∃ r, p = .done r) ∨ ∃ last, Honest reported last p

/-- The other programs that have not come to their end. -/
def left {α : Type} (i : ℕ) (ps : List (Program α)) : Finset ℕ :=
  {j ∈ Finset.range ps.length | j ≠ i ∧ (ps[j]?.bind Program.result?) = none}

section Left

variable {α : Type} {reported : α → Option (String × Version)}
  {p : Program (Except RegistryError α)} {w : List (Program (Except RegistryError α)) × Backing}
  {i : ℕ} {b : Backing}

/-- A program that lands once does so after an access. -/
lemma LandsOnce.access (once : LandsOnce reported p) (b : Backing) :
    LandsOnce reported (p.access b).1 := by
  rcases once with ⟨r, rfl⟩ | ⟨last, honest⟩
  · exact .inl ⟨r, rfl⟩
  cases honest with
  | @done _ r _ => exact .inl ⟨r, rfl⟩
  | @read _ key resume failed missing found =>
    rw [Program.access_read]
    obtain e | _ | stored := b.cells.read key
    · exact .inr ⟨_, failed e⟩
    · exact .inr ⟨_, missing⟩
    · exact .inr ⟨_, found stored⟩
  | @write _ key document expected resume _ committed conflict failed =>
    rw [Program.access_write]
    obtain e | version | actual := ((Backing.store.write key document expected).run b).1
    · exact .inr ⟨_, failed e⟩
    · obtain ⟨a, ends, -⟩ := committed version
      exact .inl ⟨_, ends⟩
    · exact .inr ⟨_, conflict actual⟩

/-- A program whose write lands is done. -/
lemma LandsOnce.result?_of_lands {key key' : String} {document : List UInt8}
    {expected : Option Version}
    {resume : Except RegistryError Outcome → Program (Except RegistryError α)}
    (once : LandsOnce reported (.write key' document expected resume))
    (lands : b.lands key (.rival key' document expected) = true) :
    (((Program.write key' document expected resume).access b).1.result?).isSome := by
  rcases once with ⟨r, eq⟩ | ⟨last, honest⟩
  · cases eq
  cases honest with
  | write _ committed _ _ =>
    rw [Backing.lands] at lands
    rw [Program.access_write]
    generalize ((Backing.store.write key' document expected).run b).1 = reply at lands ⊢
    obtain e | version | actual := reply
    · cases lands
    · obtain ⟨a, ends, -⟩ := committed version
      simp only [ends, Program.result?, Option.isSome_some]
    · cases lands

/-- The programs that are left are the others that still run. -/
lemma mem_left {ps : List (Program (Except RegistryError α))} {j : ℕ} :
    j ∈ left i ps ↔ j ≠ i ∧ ∃ q, ps[j]? = some q ∧ q.result? = none := by
  rw [left, Finset.mem_filter, Finset.mem_range]
  constructor
  · rintro ⟨lt, ne, running⟩
    rw [List.getElem?_eq_getElem lt] at running ⊢
    exact ⟨ne, _, rfl, running⟩
  · rintro ⟨ne, q, there, running⟩
    obtain ⟨lt, -⟩ := List.getElem?_eq_some_iff.mp there
    exact ⟨lt, ne, by simpa [there] using running⟩

/-- A program is not among the others. -/
lemma card_left_lt {ps : List (Program (Except RegistryError α))} (here : ps[i]? = some p) :
    (left i ps).card < ps.length := by
  obtain ⟨lt, -⟩ := List.getElem?_eq_some_iff.mp here
  have subset : left i ps ⊆ (Finset.range ps.length).erase i := by
    intro k mem
    obtain ⟨ne, q, there, -⟩ := mem_left.mp mem
    obtain ⟨inside, -⟩ := List.getElem?_eq_some_iff.mp there
    exact Finset.mem_erase.mpr ⟨ne, Finset.mem_range.mpr inside⟩
  have card := Finset.card_le_card subset
  rw [Finset.card_erase_of_mem (Finset.mem_range.mpr lt), Finset.card_range] at card
  omega

/-- A program that still runs after an access ran before it. -/
lemma Program.result?_access {q : Program (Except RegistryError α)}
    (running : (q.access b).1.result? = none) : q.result? = none := by
  cases q with
  | done r => exact running
  | read => rfl
  | write => rfl

/-- A turn brings no program back that is done. -/
lemma left_turn_subset (j : ℕ) : left i (Program.turn w j).1 ⊆ left i w.1 := by
  intro k mem
  obtain ⟨ne, q, there, running⟩ := mem_left.mp mem
  by_cases same : j = k
  · subst same
    obtain ⟨q', here⟩ : ∃ q', w.1[j]? = some q' := by
      obtain ⟨lt, -⟩ := List.getElem?_eq_some_iff.mp there
      rw [Program.length_turn] at lt
      exact ⟨_, List.getElem?_eq_getElem lt⟩
    rw [(Program.turn_self here).1] at there
    obtain rfl := Option.some.inj there
    exact mem_left.mpr ⟨ne, q', here, Program.result?_access running⟩
  · rw [Program.turn_of_ne same] at there
    exact mem_left.mpr ⟨ne, q, there, running⟩

/-- Programs that land once do so after a turn. -/
lemma landsOnce_turn (once : ∀ q ∈ w.1, LandsOnce reported q) (j : ℕ) :
    ∀ q ∈ (Program.turn w j).1, LandsOnce reported q := by
  unfold Program.turn
  split
  case h_1 => exact once
  case h_2 q here =>
    intro q' mem
    rcases List.mem_or_eq_of_mem_set mem with old | rfl
    · exact once q' old
    · exact (once q (List.mem_of_getElem? here)).access w.2

/-- A turn lands nothing against a program, or the one write of another. -/
lemma landings_seen_cases (key : String) (p : Program (Except RegistryError α)) (j : ℕ) :
    p.landings key w.2 (Program.seen i w j) = 0
      ∨ p.landings key w.2 (Program.seen i w j) = 1 ∧ j ≠ i
        ∧ ∃ key' document expected resume, w.1[j]? = some (.write key' document expected resume)
          ∧ w.2.lands key (.rival key' document expected) = true := by
  unfold Program.seen
  split
  case isTrue => exact .inl rfl
  case isFalse ne =>
  split
  case h_1 key' document expected resume here =>
    by_cases lands : w.2.lands key (.rival key' document expected)
    · refine .inr ⟨?_, ne, key', document, expected, resume, here, lands⟩
      simp only [Program.landings, lands, if_true]
    · left
      simp only [Program.landings, lands]
      rfl
  case h_2 => exact .inl rfl

/-- A turn in which another program stores a document leaves one program less. -/
lemma landings_seen (once : ∀ q ∈ w.1, LandsOnce reported q) (key : String)
    (p : Program (Except RegistryError α)) (j : ℕ) :
    p.landings key w.2 (Program.seen i w j) + (left i (Program.turn w j).1).card
      ≤ (left i w.1).card := by
  have subset := left_turn_subset (i := i) (w := w) j
  rcases landings_seen_cases (i := i) (w := w) key p j with
    none | ⟨one, ne, key', document, expected, resume, here, lands⟩
  · rw [none, Nat.zero_add]
    exact Finset.card_le_card subset
  · have before : j ∈ left i w.1 := mem_left.mpr ⟨ne, _, here, rfl⟩
    -- its write was its last access
    have after : j ∉ left i (Program.turn w j).1 := by
      intro mem
      obtain ⟨-, q, there, running⟩ := mem_left.mp mem
      have isDone := (once _ (List.mem_of_getElem? here)).result?_of_lands lands
      rw [(Program.turn_self here).1] at there
      rw [Option.some.inj there, running] at isDone
      cases isDone
    rw [one, Nat.add_comm]
    exact Finset.card_lt_card ⟨subset, fun all => after (all before)⟩

/-- Others land no more often than there are of them that have not come to their end. -/
lemma landings_history (once : ∀ q ∈ w.1, LandsOnce reported q) (here : w.1[i]? = some p)
    (key : String) (js : List ℕ) :
    p.landings key w.2 (Program.history i w js) ≤ (left i w.1).card := by
  induction js generalizing w p with
  | nil => exact Nat.zero_le _
  | cons j js ih =>
    obtain ⟨first, store⟩ := Program.turn_seen here j
    have rest := ih (landsOnce_turn once j) first
    rw [store] at rest
    have now := landings_seen (i := i) once key p j
    rw [Program.history, Program.landings_append]
    omega

end Left

/-! ## Updates -/

namespace Update

/-- An update that ends in a conflict has lost each of its attempts to somebody who stored another
document of the organization between the read and the write, so it takes at least as many of them as
there are attempts. Updates that take turns and have as many attempts as there are updates never end
in a conflict. -/
theorem converges {org : String} {b : Backing} (keyed : b.Keyed) :
    (∀ (u : Update) (n : ℕ) (es : List Event) (e : RegistryError), u.Tries org n → Sane es →
        (u.program.among b es).1.result? = some (.error e) → e.isConflict = true →
        Overtaken org n u.program b es ∧ n ≤ u.program.landings org b es)
      ∧ (∀ (u : Update) (n : ℕ) (es : List Event) (r : Except RegistryError Response),
        u.Tries org n → Sane es → (u.program.among b es).1.result? = some r →
        u.program.landings org b es < n → ∀ e, r = .error e → e.isConflict = false)
      ∧ ∀ (us : List Update) (schedule : List ℕ),
        (∀ u ∈ us, ∃ n, us.length ≤ n ∧ u.Tries org n) →
        ∀ p ∈ (schedule.foldl Program.turn (us.map program, b)).1, ∀ e,
          p.result? = some (.error e) → e.isConflict = false := by
  have overtaken : ∀ (u : Update) (n : ℕ) (es : List Event) (e : RegistryError), u.Tries org n →
      Sane es → (u.program.among b es).1.result? = some (.error e) → e.isConflict = true →
      Overtaken org n u.program b es ∧ n ≤ u.program.landings org b es := by
    intro u n es e tries sane ended conflict
    have lost := tries.overtaken keyed sane ended conflict
    exact ⟨lost, lost.le_landings⟩
  refine ⟨overtaken, ?_, ?_⟩
  · rintro u n es _ tries sane ended few e rfl
    by_contra conflict
    have enough := (overtaken u n es e tries sane ended (by simpa using conflict)).2
    omega
  · intro us schedule patient p mem e ended
    by_contra conflict
    obtain ⟨i, there⟩ := List.getElem?_of_mem mem
    obtain ⟨lt, -⟩ := List.getElem?_eq_some_iff.mp there
    rw [Program.length_turns, List.length_map] at lt
    have here : (us.map program)[i]? = some us[i].program := by simp [lt]
    obtain ⟨n, enough, tries⟩ := patient us[i] (List.getElem_mem lt)
    -- to the program in this place the others are rivals, and each of them lands once at most
    rw [Program.turns_history (w := (us.map program, b)) here schedule] at there
    obtain rfl := Option.some.inj there
    have lost := (overtaken us[i] n _ e tries (Program.sane_history i _ schedule) ended
      (by simpa using conflict)).2
    have once : ∀ q ∈ us.map program, LandsOnce Response.stored? q := by
      intro q mem
      obtain ⟨u, -, rfl⟩ := List.mem_map.mp mem
      exact .inr ⟨none, u.honest⟩
    have bound := landings_history (w := (us.map program, b)) once here org schedule
    have fewer := card_left_lt here
    rw [List.length_map] at fewer
    exact absurd (enough.trans (lost.trans bound)) (Nat.not_le.mpr fewer)

/-- A store with the catalog that an organization starts with. -/
def startingStore : Backing :=
  .memory [("acme", ⟨Schema.encode ⟨⟨"acme", [], []⟩, .empty⟩, 0⟩)]

/-- A metric that is created with so many attempts. -/
def creating (attempts : ℕ) (pos : 0 < attempts) (metric : String) : Update :=
  .direct ⟨attempts, 0, pos⟩ "acme" [.createMetric metric []]

/-- Creating a metric tries until its attempts are used up. -/
lemma creating_tries (attempts : ℕ) (pos : 0 < attempts) (metric : String) :
    (creating attempts pos metric).Tries "acme" attempts :=
  ⟨rfl, List.cons_ne_nil _ _, rfl⟩

/-- One attempt is lost to a rival and two are not, and two updates that take turns both end
well. -/
theorem converges_acme :
    let rival := Event.rival "acme" (Schema.encode ⟨⟨"acme", [], []⟩, .empty⟩) (some 0)
    Overtaken "acme" 1 (creating 1 (by decide) "clicks").program startingStore [.own, rival, .own]
      ∧ (∃ r, ((creating 2 (by decide) "clicks").program.among startingStore
          [.own, rival, .own, .own, .own]).1.result? = some r
        ∧ ∀ e, r = .error e → e.isConflict = false)
      ∧ ∀ p ∈ ([0, 1, 0, 1, 1, 1].foldl Program.turn
          ([creating 2 (by decide) "clicks", creating 2 (by decide) "views"].map program,
            startingStore)).1,
        ∀ e, p.result? = some (.error e) → e.isConflict = false := by
  intro rival
  obtain ⟨overtaken, few, together⟩ := @converges "acme" startingStore trivial
  have lost : ((creating 1 (by decide) "clicks").program.among startingStore
      [.own, rival, .own]).1.result? = some (.error (.conflict "acme" (some 0))) := by
    decide +kernel
  have won : ((creating 2 (by decide) "clicks").program.among startingStore
      [.own, rival, .own, .own, .own]).1.result? = some (.ok (.committed "acme" 2 true)) := by
    decide +kernel
  refine ⟨?_, ⟨_, won, ?_⟩, ?_⟩
  · refine (overtaken _ 1 _ _ (creating_tries ..) (fun e mem => ?_) lost rfl).1
    simp [rival] at mem
  · refine few _ 2 _ _ (creating_tries ..) (fun e mem => ?_) won (by decide +kernel)
    simp [rival] at mem
  · refine together _ _ fun u mem => ⟨2, Nat.le_refl 2, ?_⟩
    rcases List.mem_cons.mp mem with rfl | mem
    · exact creating_tries ..
    · rw [List.mem_singleton.mp mem]
      exact creating_tries ..

end Update

end MetricRegistry
