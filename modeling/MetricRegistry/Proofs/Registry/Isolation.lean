import Mathlib.Data.Set.Basic
import MetricRegistry.Proofs.Registry.Alone
import MetricRegistry.Request.Handler

/-!
# Tenants do not meet

Many organizations share a store, and none can tell. A program is `Within` some keys where it reads
and writes under these alone; such a program depends on nothing else that is held (`Within.congr`)
and leaves everything else as it was (`Within.frame`). `within_handle` says that a request keeps to
the organization that it names. By induction on a sequence of requests, `tenants_isolated` leaves
out what others asked for, and puts the requests of different organizations in another order.
-/

namespace MetricRegistry

/-! ## Programs that keep to some keys -/

namespace Program

/-- A program reads and writes under some keys alone, whatever the replies. -/
inductive Within {α : Type} (keys : Set String) : Program α → Prop where
  | done {a} :
    Within keys (.done a)
  | read {key resume} :
    key ∈ keys →
    (∀ r, Within keys (resume r)) →
    Within keys (.read key resume)
  | write {key document expected resume} :
    key ∈ keys →
    (∀ r, Within keys (resume r)) →
    Within keys (.write key document expected resume)

variable {α β : Type} {keys : Set String} {limited : Bool} {cs ds : Cells}

/-- Two programs stay within keys if each does. -/
lemma Within.bind {p : Program α} {f : α → Program β} (first : p.Within keys)
    (rest : ∀ a, (f a).Within keys) : (p >>= f).Within keys := by
  induction first with
  | @done a => exact rest a
  | read inside _ ih => exact .read inside ih
  | write inside _ ih => exact .write inside ih

/-- Two actions stay within keys if each does. -/
lemma Within.andThen {a : Action α} {f : α → Action β} (first : (ExceptT.run a).Within keys)
    (rest : ∀ x, (ExceptT.run (f x)).Within keys) : (ExceptT.run (a >>= f)).Within keys := by
  rw [ExceptT.run_bind]
  refine first.bind fun r => ?_
  cases r with
  | ok x => exact rest x
  | error e => exact .done

/-- A loop stays within keys if its attempts do. -/
lemma Within.loop {attempt : Program (Except RegistryError α)} (within : attempt.Within keys)
    (n : ℕ) (last : RegistryError) : (Retryer.loop attempt n last).Within keys := by
  induction n generalizing last with
  | zero => exact .done
  | succ n ih =>
    refine within.bind fun r => ?_
    cases r with
    | ok x => exact .done
    | error e =>
      dsimp only
      split
      · exact ih e
      · exact .done

/-- What is held under other keys stays. -/
lemma Within.frame {p : Program α} (within : p.Within keys) {key : String} (outside : key ∉ keys) :
    (p.alone limited cs).2 key = cs key := by
  induction within generalizing cs with
  | done => rfl
  | @read key' resume inside _ ih => exact ih (cs.read key')
  | @write key' document expected resume inside _ ih =>
    have ne : key ≠ key' := by
      rintro rfl
      exact outside inside
    rw [alone_write, ih]
    exact Cells.write_of_ne ne limited document expected

/-- Nothing depends on what is held under other keys. -/
lemma Within.congr {p : Program α} (within : p.Within keys) (limited : Bool)
    (same : ∀ key ∈ keys, cs key = ds key) :
    (p.alone limited cs).1 = (p.alone limited ds).1
      ∧ ∀ key ∈ keys, (p.alone limited cs).2 key = (p.alone limited ds).2 key := by
  induction within generalizing cs ds with
  | done => exact ⟨rfl, same⟩
  | @read key resume inside _ ih =>
    have reply : cs.read key = ds.read key := by
      rw [Cells.read, Cells.read, same key inside]
    rw [alone_read, alone_read, reply]
    exact ih _ same
  | @write key document expected resume inside _ ih =>
    obtain ⟨reply, here⟩ := Cells.write_congr (same key inside) limited document expected
    rw [alone_write, alone_write, reply]
    refine ih _ fun other mem => ?_
    by_cases eq : other = key
    · rw [eq, here]
    · rw [Cells.write_of_ne eq, Cells.write_of_ne eq, same other mem]

end Program

open Program

/-! ## What a request touches -/

/-- The organization that a request is addressed to, if it names one. -/
def Request.org : Request → Option String
  | .createOrg org => org
  | .updateTenant org _ _ => org
  | .createMetric org _ _ => org
  | .updateMetric org _ _ => org
  | .deleteMetric org _ => org
  | .createField org _ _ _ _ => org
  | .updateField org _ _ _ => org
  | .deleteField org _ _ => org
  | .getMetrics org => org
  | .getMetric org _ => org
  | .getTenant org => org

/-- The organization that a plan is about. -/
def Plan.org : Plan → String
  | .createOrg org => org
  | .update org _ _ => org
  | .getMetrics org => org
  | .getMetric org _ => org
  | .getTenant org => org

/-- A text that was required was given. -/
lemma required_eq_ok {name text : String} {given : Option String}
    (present : required name given = .ok text) : given = some text := by
  cases given with
  | none => cases present
  | some t =>
    simp only [required] at present
    split at present
    · cases present
    · exact congrArg some (Except.ok.inj present)

/-- A plan is about the organization that its request names. -/
lemma Request.org_of_plan {r : Request} {plan : Plan} (planned : r.plan = .ok plan) :
    r.org = some plan.org := by
  cases r with
  | createField org metric field type aliases =>
    simp only [Request.plan, Except.bind_eq_ok] at planned
    obtain ⟨o, present, _, -, _, -, planned⟩ := planned
    cases type with
    | none => cases planned
    | some type =>
      obtain rfl := Except.pure_eq_ok.mp planned
      exact required_eq_ok present
  | _ =>
    simp only [Request.plan, Except.bind_eq_ok, Except.pure_eq_ok] at planned
    grind [Request.org, Plan.org, required_eq_ok]

section Footprints

variable {keys : Set String} {org : String}

/-- Opening a clerk stays with its organization. -/
lemma within_opened (inside : org ∈ keys) : (ExceptT.run (Clerk.opened org)).Within keys := by
  rw [run_opened]
  exact .read inside fun _ => .done

/-- Writing stays with its organization. -/
lemma within_writing (inside : org ∈ keys) {s : Catalog.Schema} {expected : Option Version}
    {lost : RegistryError} : (Committed.writing org s expected lost).Within keys :=
  .write inside fun _ => .done

/-- A creation stays with its organization. -/
lemma within_commitNew (inside : org ∈ keys) : (ExceptT.run (commitNew org)).Within keys := by
  rw [run_commitNew]
  cases Catalog.Schema.ofOrg org with
  | error violation => exact .done
  | ok s => exact within_writing inside

/-- Changes stay with their organization. -/
lemma within_commitChanges (inside : org ∈ keys) (ms : List Catalog.Mutation) :
    (ExceptT.run (commitChanges org ms)).Within keys := by
  rw [run_commitChanges]
  refine .read inside fun r => ?_
  cases Clerk.ofReply org r with
  | error e => exact .done
  | ok base =>
    simp only [Committed.afterRead]
    split
    · exact .done
    · cases base.schema.applyAll ms with
      | error rejection => exact .done
      | ok s => exact within_writing inside

/-- A plan stays with its organization. -/
lemma within_perform (retryer : Retryer) (plan : Plan) (inside : plan.org ∈ keys) :
    (ExceptT.run (plan.perform retryer)).Within keys := by
  cases plan with
  | createOrg org => exact (within_commitNew inside).andThen fun _ => .done
  | update org ms target =>
    simp only [Plan.perform]
    split
    · exact (within_opened inside).andThen fun _ => Within.done.andThen fun _ => .done
    · exact Within.andThen ((within_commitChanges inside ms).loop _ _) fun _ => .done
  | getMetrics org => exact (within_opened inside).andThen fun _ => .done
  | getMetric org metric =>
    exact (within_opened inside).andThen fun _ => Within.done.andThen fun _ => .done
  | getTenant org => exact (within_opened inside).andThen fun _ => .done

/-- A request keeps to the organization that it names. -/
lemma within_handle (retryer : Retryer) (r : Request) :
    (ExceptT.run (handle retryer r)).Within {org | r.org = some org} := by
  rw [handle, ExceptT.run_bind, Action.run_ofExcept, done_bind]
  cases planned : r.plan with
  | error rejection => exact .done
  | ok plan => exact within_perform retryer plan (Request.org_of_plan planned)

end Footprints

/-! ## Sequences of requests -/

/-- A request and the answer to it. -/
abbrev Exchange := Request × Except RegistryError Response

/-- Answers requests one after the other. -/
def converse (retryer : Retryer) (rs : List Request) : Program (List Exchange) :=
  rs.mapM fun r => do return (r, ← ExceptT.run (handle retryer r))

/-- The same requests, where those that are addressed to one organization keep their order. -/
def Reordered (rs rs' : List Request) : Prop :=
  ∀ who, rs.filter (·.org = who) = rs'.filter (·.org = who)

/-- Neighbours that are addressed to different organizations may change places. -/
lemma reordered_swap {r r' : Request} (apart : r.org ≠ r'.org) (before after : List Request) :
    Reordered (before ++ r :: r' :: after) (before ++ r' :: r :: after) := by
  intro who
  rw [List.filter_append, List.filter_append]
  congr 1
  by_cases own : r.org = who
  · have other : r'.org ≠ who := fun own' => apart (own.trans own'.symm)
    simp [own, other]
  · simp [List.filter_cons, own]

section Converse

variable {retryer : Retryer} {limited : Bool} {cs ds : Cells}

/-- A conversation answers its first request first. -/
lemma alone_converse_cons (r : Request) (rs : List Request) :
    (converse retryer (r :: rs)).alone limited cs
      = ((r, ((ExceptT.run (handle retryer r)).alone limited cs).1)
          :: ((converse retryer rs).alone limited
            ((ExceptT.run (handle retryer r)).alone limited cs).2).1,
        ((converse retryer rs).alone limited
          ((ExceptT.run (handle retryer r)).alone limited cs).2).2) := by
  simp only [converse, alone_mapM_cons, alone_bind]
  rfl

/-- The exchanges with one addressee are those that it has alone, where the store holds the same
for it. -/
lemma converse_filter (retryer : Retryer) (limited : Bool) (rs : List Request)
    (who : Option String) (same : ∀ org, who = some org → cs org = ds org) :
    ((converse retryer rs).alone limited cs).1.filter (·.1.org = who)
        = ((converse retryer (rs.filter (·.org = who))).alone limited ds).1
      ∧ ∀ org, who = some org → ((converse retryer rs).alone limited cs).2 org
        = ((converse retryer (rs.filter (·.org = who))).alone limited ds).2 org := by
  induction rs generalizing cs ds with
  | nil => exact ⟨rfl, same⟩
  | cons r rs ih =>
    have within := within_handle retryer r
    rw [alone_converse_cons]
    by_cases own : r.org = who
    · -- a request of one's own finds and leaves the same in both stores
      obtain rfl := own
      obtain ⟨answer, left⟩ := within.congr limited same
      obtain ⟨rest, final⟩ := ih left
      simp only [List.filter_cons, decide_true, if_true, alone_converse_cons, answer]
      exact ⟨congrArg _ rest, final⟩
    · -- a request of somebody else leaves what the own ones find
      have left : ∀ org, who = some org →
          ((ExceptT.run (handle retryer r)).alone limited cs).2 org = ds org := by
        intro org mine
        rw [within.frame fun theirs => own (theirs.trans mine.symm), same org mine]
      simp only [List.filter_cons, own, decide_false, Bool.false_eq_true, if_false]
      exact ih left

end Converse

/-- The answers to the requests that are addressed to an organization, and what is stored of it in
the end, are the same if nobody else asks for anything. Requests with different addressees may come
in any order: all answers are the same, and so is the store in the end. -/
theorem tenants_isolated {b : Backing} (keyed : b.Keyed) (retryer : Retryer) (rs : List Request) :
    let talk (rs : List Request) := ((converse retryer rs).run Backing.store).run b
    (∀ org : String,
        (talk rs).1.filter (·.1.org = some org) = (talk (rs.filter (·.org = some org))).1
          ∧ (talk rs).2.cells org = (talk (rs.filter (·.org = some org))).2.cells org)
      ∧ ∀ rs', Reordered rs rs' →
        (∀ who, (talk rs).1.filter (·.1.org = who) = (talk rs').1.filter (·.1.org = who))
          ∧ (talk rs).2.cells = (talk rs').2.cells := by
  intro talk
  have alone (rs : List Request) : (converse retryer rs).alone b.limited b.cells
      = ((talk rs).1, (talk rs).2.cells) := by
    obtain ⟨xs, b', run, -, -, alone⟩ := Backing.run_alone keyed (converse retryer rs)
    rw [alone, show talk rs = (xs, b') from run]
  have own (rs : List Request) (who : Option String) :=
    @converse_filter b.cells b.cells retryer b.limited rs who fun _ _ => rfl
  simp only [alone] at own
  refine ⟨fun org => ⟨(own rs _).1, (own rs _).2 org rfl⟩, fun rs' reordered => ⟨?_, ?_⟩⟩
  · intro who
    rw [(own rs who).1, (own rs' who).1, reordered who]
  · funext org
    rw [(own rs _).2 org rfl, (own rs' _).2 org rfl, reordered (some org)]

/-- An organization is created and gets a metric, and somebody asks for another one meanwhile, whose
document is damaged. -/
theorem tenants_isolated_neighbours :
    let talk (rs : List Request) :=
      ((converse ⟨3, 0, by decide⟩ rs).run Backing.store).run (.memory [("zeta", ⟨[7], 4⟩)])
    let create := Request.createOrg (some "acme")
    let change := Request.createMetric (some "acme") (some "clicks") ["hits"]
    let look := Request.getMetrics (some "zeta")
    (talk [create, look, change]).1.filter (·.1.org = some "acme")
        = [(create, .ok (.committed "acme" 0 true)), (change, .ok (.committed "acme" 1 true))]
      ∧ (talk [create, look, change]).2.cells = (talk [look, create, change]).2.cells := by
  intro talk create change look
  have keyed : (Backing.memory [("zeta", ⟨[7], 4⟩)]).Keyed := trivial
  have isolated := tenants_isolated keyed ⟨3, 0, by decide⟩ [create, look, change]
  have reordered : Reordered [create, look, change] [look, create, change] :=
    reordered_swap (by decide) [] [change]
  refine ⟨(isolated.1 "acme").1.trans ?_, (isolated.2 _ reordered).2⟩
  decide +kernel

end MetricRegistry
