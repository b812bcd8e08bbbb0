import MetricRegistry.Proofs.Outcome
import MetricRegistry.Request.Basic

/-!
# What a request requires

A request has a plan if and only if it lacks no field that it requires (`Request.demands_plan`,
`Request.not_lacks_of_plan`), and nothing that the catalog decides later on says that a field is
missing (`Schema.judged_applyAll`). Its kind, as far as the store is concerned, can be told before
that, and is the kind of its plan (`Request.task_of_plan`).
-/

namespace MetricRegistry

open Catalog

/-! ## What changes are refused for -/

/-- An outcome of the catalog's own checks, none of which says that a field is missing. -/
def Judged {α : Type} (r : Except Rejection α) : Prop :=
  ∀ name, r ≠ .error (.missingField name)

section Judgements

variable {α β : Type}

/-- A result without an error is judged. -/
lemma judged_ok (a : α) : Judged (.ok a) :=
  nofun

/-- A refusal for any other reason is judged. -/
lemma judged_error {e : Rejection} (other : ∀ name, e ≠ .missingField name) :
    Judged (.error e : Except Rejection α) := by
  intro name eq
  cases eq
  exact other name rfl

/-- A violation is judged. -/
lemma judged_invalid (r : Except Violation α) : Judged (r.mapError .invalid) := by
  intro name eq
  cases r <;> cases eq

/-- A computation in two parts is judged if both are. -/
lemma Judged.bind {x : Except Rejection α} {f : α → Except Rejection β} (first : Judged x)
    (rest : ∀ a, Judged (f a)) : Judged (x >>= f) := by
  cases x with
  | error e =>
    refine judged_error fun name eq => first name ?_
    rw [eq]
  | ok a => exact rest a

end Judgements

namespace Catalog

namespace Directory

variable {α : Type} [Entry α] {scope : Scope} {d : Directory α}

/-- Requiring an entry judges. -/
lemma judged_require (t : String) : Judged (require scope d t) := by
  unfold require
  split
  · exact judged_ok _
  · exact judged_error nofun

/-- Asking for a free text judges. -/
lemma judged_ensureFree (t : String) : Judged (ensureFree scope d t) := by
  unfold ensureFree
  split
  · exact judged_error nofun
  · exact judged_ok _

/-- Asking for new names judges. -/
lemma judged_ensureNew (ts : List String) : Judged (ensureNew scope d ts) := by
  induction ts with
  | nil => exact judged_ok _
  | cons t ts ih =>
    unfold ensureNew
    split
    · exact judged_error nofun
    · exact ih

/-- Asking for names without repetition judges. -/
lemma judged_ensureUnrepeated (earlier ts : List String) :
    Judged (ensureUnrepeated scope earlier ts) := by
  induction ts generalizing earlier with
  | nil => exact judged_ok _
  | cons t ts ih =>
    unfold ensureUnrepeated
    split
    · exact judged_error nofun
    · exact ih _

omit [Entry α] in
/-- Giving out an id judges. -/
lemma judged_allocate : Judged (allocate scope d) := by
  unfold allocate
  generalize (if d.next = 0 then 1 else d.next) = id
  dsimp only
  split
  · exact judged_ok _
  · exact judged_error fun _ eq => by cases eq

/-- Creating an entry judges. -/
lemma judged_create (make : UInt32 → Naming → α) (n : Naming) :
    Judged (create scope make n d) :=
  (judged_invalid _).bind fun _ => (judged_ensureNew _).bind fun _ =>
    (judged_ensureUnrepeated _ _).bind fun _ => judged_allocate.bind fun _ => judged_ok _

/-- Renaming an entry judges. -/
lemma judged_rename (reference t : String) : Judged (rename scope reference t d) := by
  refine (judged_require _).bind fun l => ?_
  dsimp only
  split
  · exact judged_ok _
  split
  · exact judged_ok _
  · exact (judged_ensureFree _).bind fun _ => judged_ok _

/-- Adding an alias judges. -/
lemma judged_addAlias (reference t : String) : Judged (addAlias scope reference t d) :=
  (judged_require _).bind fun _ => (judged_ensureFree _).bind fun _ => judged_ok _

/-- Removing an alias judges. -/
lemma judged_removeAlias (reference t : String) : Judged (removeAlias scope reference t d) := by
  refine (judged_require _).bind fun l => ?_
  dsimp only
  split
  · exact judged_ok _
  · exact judged_error nofun

/-- Deleting an entry judges. -/
lemma judged_delete (reference : String) : Judged (delete scope reference d) :=
  (judged_require _).bind fun _ => judged_ok _

end Directory

namespace Schema

variable {s : Schema}

/-- Changing the metrics judges if the change does. -/
lemma judged_changeMetrics {change : Directory Metric → Except Rejection (Directory Metric)}
    (judged : ∀ d, Judged (change d)) : Judged (s.changeMetrics change) :=
  (judged _).bind fun _ => judged_ok _

/-- Changing the fields of a metric judges if the change does. -/
lemma judged_changeFields {metric : String}
    {change : Scope → Directory Field → Except Rejection (Directory Field)}
    (judged : ∀ scope d, Judged (change scope d)) : Judged (s.changeFields metric change) :=
  judged_changeMetrics fun _ => (Directory.judged_require _).bind fun _ =>
    ((judged _ _).bind fun _ => judged_ok _).bind fun _ => judged_ok _

/-- A mutation judges. -/
lemma judged_edit (m : Mutation) : Judged (s.edit m) := by
  unfold edit
  cases m with
  | setMetricKeys keys =>
    exact (judged_invalid _).bind fun _ => judged_ok _
  | setTimestampFormats formats =>
    exact (judged_invalid _).bind fun _ => judged_ok _
  | createMetric => exact judged_changeMetrics fun _ => Directory.judged_create _ _
  | renameMetric =>
    exact (judged_invalid _).bind fun _ =>
      judged_changeMetrics fun _ => Directory.judged_rename _ _
  | addMetricAlias =>
    exact (judged_invalid _).bind fun _ =>
      judged_changeMetrics fun _ => Directory.judged_addAlias _ _
  | removeMetricAlias => exact judged_changeMetrics fun _ => Directory.judged_removeAlias _ _
  | deleteMetric => exact judged_changeMetrics fun _ => Directory.judged_delete _
  | createField => exact judged_changeFields fun _ _ => Directory.judged_create _ _
  | renameField =>
    exact (judged_invalid _).bind fun _ =>
      judged_changeFields fun _ _ => Directory.judged_rename _ _
  | addFieldAlias =>
    exact (judged_invalid _).bind fun _ =>
      judged_changeFields fun _ _ => Directory.judged_addAlias _ _
  | removeFieldAlias => exact judged_changeFields fun _ _ => Directory.judged_removeAlias _ _
  | deleteField => exact judged_changeFields fun _ _ => Directory.judged_delete _

/-- No change of a catalog is refused for a field that is missing. -/
lemma judged_applyAll (s : Schema) (ms : List Mutation) : Judged (s.applyAll ms) := by
  induction ms generalizing s with
  | nil => exact judged_ok s
  | cons m ms ih =>
    have applied : Judged (s.apply m) :=
      (judged_edit m).bind fun _ => (judged_invalid _).bind fun _ => judged_ok _
    exact applied.bind ih

end Schema

end Catalog

/-! ## What a request lacks -/

/-- A text that is absent or has no characters. -/
def Absent (given : Option String) : Prop :=
  given = none ∨ given = some ""

namespace Request

/-- The texts that a request requires, as it gives them. -/
def requiredTexts : Request → List (String × Option String)
  | .createOrg org => [("org_id", org)]
  | .updateTenant org _ _ => [("org_id", org)]
  | .createMetric org metric _ => [("org_id", org), ("metric_name", metric)]
  | .updateMetric org metric _ => [("org_id", org), ("metric_name", metric)]
  | .deleteMetric org metric => [("org_id", org), ("metric_name", metric)]
  | .createField org metric field _ _ =>
    [("org_id", org), ("metric_name", metric), ("field_name", field)]
  | .updateField org metric field _ =>
    [("org_id", org), ("metric_name", metric), ("field_name", field)]
  | .deleteField org metric field =>
    [("org_id", org), ("metric_name", metric), ("field_name", field)]
  | .getMetrics org => [("org_id", org)]
  | .getMetric org metric => [("org_id", org), ("metric_name", metric)]
  | .getTenant org => [("org_id", org)]

/-- A request lacks a field that it requires. -/
inductive Lacks (request : Request) : String → Prop where
  | text {name given} :
    (name, given) ∈ request.requiredTexts →
    Absent given →
    Lacks request name
  | type {org metric field aliases} :
    request = .createField org metric field none aliases →
    Lacks request "field_type"

end Request

/-- A text that is required is refused if it is absent. -/
lemma required_eq_error {name : String} {given : Option String} {e : Rejection} :
    required name given = .error e ↔ Absent given ∧ e = .missingField name := by
  have flip : .missingField name = e ↔ e = .missingField name := eq_comm
  cases given with
  | none => simp [required, Absent, flip]
  | some t =>
    by_cases empty : t = ""
    · simp [required, Absent, empty, flip]
    · simp [required, Absent, empty]

/-- A text that was required is there. -/
lemma not_absent_of_required {name text : String} {given : Option String}
    (present : required name given = .ok text) : ¬ Absent given := by
  intro absent
  rw [required_eq_error.mpr ⟨absent, rfl⟩] at present
  cases present

namespace Request

/-- Whatever is refused is a field that a request lacks. -/
def Demands (request : Request) (asked : Except Rejection Plan) : Prop :=
  ∀ e, asked = .error e → ∃ name, e = .missingField name ∧ request.Lacks name

section Demands

variable {request : Request}

/-- A plan demands nothing. -/
lemma demands_ok (plan : Plan) : request.Demands (pure plan) :=
  nofun

/-- A text that a request must have is demanded, and then what comes after it. -/
lemma demands_text {name : String} {given : Option String} {f : String → Except Rejection Plan}
    (asked : (name, given) ∈ request.requiredTexts) (rest : ∀ t, request.Demands (f t)) :
    request.Demands (required name given >>= f) := by
  intro e refused
  rcases Except.bind_eq_error.mp refused with missing | ⟨t, -, refused⟩
  · obtain ⟨absent, rfl⟩ := required_eq_error.mp missing
    exact ⟨name, rfl, .text asked absent⟩
  · exact rest t e refused

/-- A request that has no plan is refused for what it lacks. -/
lemma demands_plan (request : Request) : request.Demands request.plan := by
  cases request with
  | createOrg => exact demands_text (by simp [requiredTexts]) fun _ => demands_ok _
  | updateTenant => exact demands_text (by simp [requiredTexts]) fun _ => demands_ok _
  | createMetric =>
    exact demands_text (by simp [requiredTexts]) fun _ =>
      demands_text (by simp [requiredTexts]) fun _ => demands_ok _
  | updateMetric =>
    exact demands_text (by simp [requiredTexts]) fun _ =>
      demands_text (by simp [requiredTexts]) fun _ => demands_ok _
  | deleteMetric =>
    exact demands_text (by simp [requiredTexts]) fun _ =>
      demands_text (by simp [requiredTexts]) fun _ => demands_ok _
  | createField org metric field type aliases =>
    refine demands_text (by simp [requiredTexts]) fun _ =>
      demands_text (by simp [requiredTexts]) fun _ =>
        demands_text (by simp [requiredTexts]) fun _ => ?_
    cases type with
    | none =>
      intro e refused
      cases refused
      exact ⟨_, rfl, .type rfl⟩
    | some type => exact demands_ok _
  | updateField =>
    exact demands_text (by simp [requiredTexts]) fun _ =>
      demands_text (by simp [requiredTexts]) fun _ =>
        demands_text (by simp [requiredTexts]) fun _ => demands_ok _
  | deleteField =>
    exact demands_text (by simp [requiredTexts]) fun _ =>
      demands_text (by simp [requiredTexts]) fun _ =>
        demands_text (by simp [requiredTexts]) fun _ => demands_ok _
  | getMetrics => exact demands_text (by simp [requiredTexts]) fun _ => demands_ok _
  | getMetric =>
    exact demands_text (by simp [requiredTexts]) fun _ =>
      demands_text (by simp [requiredTexts]) fun _ => demands_ok _
  | getTenant => exact demands_text (by simp [requiredTexts]) fun _ => demands_ok _

end Demands

/-- A request that has a plan lacks nothing. -/
lemma not_lacks_of_plan {request : Request} {plan : Plan} (planned : request.plan = .ok plan)
    (name : String) : ¬ request.Lacks name := by
  rintro (⟨asked, absent⟩ | rfl)
  · cases request with
    | createField org metric field type aliases =>
      simp only [Request.plan, Except.bind_eq_ok] at planned
      grind [requiredTexts, not_absent_of_required]
    | _ =>
      simp only [Request.plan, Except.bind_eq_ok] at planned
      grind [requiredTexts, not_absent_of_required]
  · simp only [Request.plan, Except.bind_eq_ok] at planned
    obtain ⟨_, -, _, -, _, -, planned⟩ := planned
    cases planned

end Request

/-! ## What a request is to the store -/

/-- The kinds of request, by what they may do to the store. -/
inductive Task where
  | question
  | creation
  /-- An update that changes nothing. -/
  | idle
  | changes
  deriving DecidableEq, Repr

/-- The kind of a request. -/
def Request.task : Request → Task
  | .createOrg _ => .creation
  | .updateTenant _ keys formats => if keys = none ∧ formats = none then .idle else .changes
  | .updateMetric _ _ changes => if changes = {} then .idle else .changes
  | .updateField _ _ _ changes => if changes = {} then .idle else .changes
  | .createMetric _ _ _ => .changes
  | .deleteMetric _ _ => .changes
  | .createField _ _ _ _ _ => .changes
  | .deleteField _ _ _ => .changes
  | .getMetrics _ => .question
  | .getMetric _ _ => .question
  | .getTenant _ => .question

/-- The kind of a plan. -/
def Plan.task : Plan → Task
  | .createOrg _ => .creation
  | .update _ ms _ => if ms = [] then .idle else .changes
  | .getMetrics _ => .question
  | .getMetric _ _ => .question
  | .getTenant _ => .question

/-- Without a new name only aliases to remove are removed. -/
lemma NameChanges.removals_eq_nil {c : NameChanges} {handle : String} (kept : c.newName = none) :
    c.removals handle = [] ↔ c.removeAliases = [] := by
  have all : c.removeAliases.filter (some · != c.newName) = c.removeAliases := by simp [kept]
  simp only [removals, all]
  cases c.removeAliases with
  | nil => simp
  | cons removed rest => by_cases same : removed = handle <;> simp [same]

/-- A metric is not changed if nothing is to be. -/
lemma NameChanges.ofMetric_eq_nil {c : NameChanges} {metric : String} :
    c.ofMetric metric = [] ↔ c = {} := by
  obtain ⟨_ | newName, added, removed⟩ := c
  · simp [ofMetric, removals_eq_nil]
  · simp [ofMetric]

/-- A field is not changed if nothing is to be. -/
lemma NameChanges.ofField_eq_nil {c : NameChanges} {metric field : String} :
    c.ofField metric field = [] ↔ c = {} := by
  obtain ⟨_ | newName, added, removed⟩ := c
  · simp [ofField, removals_eq_nil]
  · simp [ofField]

/-- A plan is of the kind of its request. -/
lemma Request.task_of_plan {request : Request} {plan : Plan} (planned : request.plan = .ok plan) :
    plan.task = request.task := by
  cases request with
  | createField org metric field type aliases =>
    simp only [Request.plan, Except.bind_eq_ok] at planned
    obtain ⟨_, -, _, -, _, -, planned⟩ := planned
    cases type with
    | none => cases planned
    | some type =>
      cases planned
      rfl
  | updateTenant org keys formats =>
    simp only [Request.plan, Except.bind_eq_ok, Except.pure_eq_ok] at planned
    obtain ⟨_, -, rfl⟩ := planned
    cases keys <;> cases formats <;> rfl
  | updateMetric org metric changes =>
    simp only [Request.plan, Except.bind_eq_ok, Except.pure_eq_ok] at planned
    obtain ⟨_, -, _, -, rfl⟩ := planned
    simp only [Plan.task, task, NameChanges.ofMetric_eq_nil]
  | updateField org metric field changes =>
    simp only [Request.plan, Except.bind_eq_ok, Except.pure_eq_ok] at planned
    obtain ⟨_, -, _, -, _, -, rfl⟩ := planned
    simp only [Plan.task, task, NameChanges.ofField_eq_nil]
  | _ =>
    simp only [Request.plan, Except.bind_eq_ok, Except.pure_eq_ok] at planned
    grind [Plan.task, task]

end MetricRegistry
