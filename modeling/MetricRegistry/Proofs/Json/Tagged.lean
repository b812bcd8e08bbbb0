import MetricRegistry.Json.Tagged
import MetricRegistry.Proofs.Json.Containers

/-!
# Tagged values are read back

A tagged value is read in two goes: its members are kept as values, and the alternative that the tag
names looks its fields up in them. `Reads.tagged` is the first go, for an object whose tag comes
first and whose other members are `Kept`, as texts, lists of texts and absent ones are. The second
go is a look-up in members that are known.
-/

namespace MetricRegistry.Json
open Ascii

/-! ## Values -/

section Values

variable {depth : ℕ}

/-- The value `null` is read from what is written for it. -/
lemma reads_value_null : Reads (value depth) Value.null.compact .null := by
  intro s _
  have start (u : List UInt8) : skipSpace (lowerN :: u) = lowerN :: u :=
    skipSpace_cons u (by decide)
  cases depth <;> simp [value, valueWith, Value.compact, nullBytes, start, word, bind, Except.bind,
    pure, Except.pure]

/-- A string is read as a value from what is written for it. -/
lemma reads_value_string (t : String) :
    Reads (value depth) (Value.string t).compact (.string t) := by
  intro s _
  have start (u : List UInt8) : skipSpace (quote :: u) = quote :: u := skipSpace_cons u (by decide)
  have kind : quote ≠ lowerN ∧ quote ≠ lowerT ∧ quote ≠ lowerF ∧ quote ≠ minus
      ∧ isDigit quote = false := by decide
  obtain ⟨n, t', f, m, d⟩ := kind
  cases depth <;> simp [value, valueWith, Value.compact, quoted, start, n, t', f, m, d,
    string_quoted, bind, Except.bind, pure, Except.pure]

/-- A list of values is an array, a level further out. -/
lemma value_of_list {s rest : List UInt8} {vs : List Value}
    (read : list (value depth) s = .ok (vs, rest)) :
    value (depth + 1) s = .ok (.array vs, rest) := by
  cases start : skipSpace s with
  | nil => simp [list, start] at read
  | cons b s' =>
    by_cases array : b = openBracket
    · obtain rfl := array
      have kind : openBracket ≠ lowerN ∧ openBracket ≠ lowerT ∧ openBracket ≠ lowerF
          ∧ openBracket ≠ minus ∧ isDigit openBracket = false ∧ openBracket ≠ quote := by decide
      obtain ⟨n, t, f, m, d, q⟩ := kind
      simp only [list, start, beq_self_eq_true, if_true] at read
      simp [value, valueWith, start, n, t, f, m, d, q, read, bind, Except.bind, pure, Except.pure]
    · simp [list, start, array] at read

/-- A list of texts is read as a value from what is written for it. -/
lemma reads_value_texts (ts : List String) :
    Reads (value (depth + 1)) (Value.texts ts).compact (.texts ts) := by
  have written : compactItems (ts.map .string) = (ts.map .string).map Value.compact := by
    simp [compactItems_map]
  have items : Reads (list (value depth)) (Value.texts ts).compact (ts.map .string) := by
    rw [Value.texts, Value.compact, written]
    refine Reads.list (fun v mem => ?_) fun v mem => ?_
    · obtain ⟨t, -, rfl⟩ := List.mem_map.mp mem
      exact reads_value_string t
    · obtain ⟨t, -, rfl⟩ := List.mem_map.mp mem
      exact ⟨quote, _, rfl, by decide, by decide⟩
  exact fun s ends => value_of_list (items s ends)

/-- A value is read back as deep inside as it stands beside a tag. -/
def Kept (v : Value) : Prop :=
  Reads (value (maxDepth - 1)) v.compact v

/-- A string is kept as it is. -/
@[simp]
lemma kept_string (t : String) : Kept (.string t) :=
  reads_value_string t

/-- A list of texts is kept as it is. -/
@[simp]
lemma kept_texts (ts : List String) : Kept (.texts ts) :=
  @reads_value_texts (maxDepth - 2) ts

/-- An optional value is kept as it is. -/
lemma kept_option {α : Type} {f : α → Value} (kept : ∀ x, Kept (f x)) (x : Option α) :
    Kept (.option f x) := by
  cases x with
  | none => exact reads_value_null
  | some x => exact kept x

end Values

/-! ## Tagged objects -/

section Tags

variable {τ : Type} {key name : String} {ofName : String → Option τ} {t : τ}

/-- A tag is read from the name that is written for it. -/
lemma reads_tag (known : ofName name = some t) :
    Reads (tag ofName) (Value.string name).compact t := by
  intro s ends
  simp [tag, reads_text name s ends, known, bind, Except.bind, pure, Except.pure]

/-- The members beside the tag are kept, the latest first. -/
lemma takes_content {tag : Option τ} {kept ms : List (String × Value)}
    (others : ∀ m ∈ ms, m.1 ≠ key ∧ Kept m.2) :
    Takes (taggedMember key ofName (value (maxDepth - 1))) (tag, kept)
      (ms.map fun m => (m.1, m.2.compact)) (tag, ms.reverse ++ kept) := by
  induction ms generalizing kept with
  | nil => exact .nil
  | cons m ms ih =>
    obtain ⟨name, v⟩ := m
    obtain ⟨ne, reads⟩ := others (name, v) (by simp)
    have other : (name == key) = false := by simpa using ne
    have rest := @ih ((name, v) :: kept) fun m mem => others m (by simp [mem])
    rw [List.reverse_cons, List.append_assoc]
    refine .cons (by simp [taggedMember, other]; rfl) ?_ rest
    intro s ends
    simp [reads s ends]

/-- An object is read as its tag, which comes first, and its other members. -/
lemma Reads.tagged {ms : List (String × Value)} (known : ofName name = some t)
    (others : ∀ m ∈ ms, m.1 ≠ key ∧ Kept m.2) :
    Reads (Json.tagged key ofName) (Value.object ((key, .string name) :: ms)).compact
      ⟨t, .named ms⟩ := by
  intro s _
  have takes : Takes (taggedMember key ofName (value (maxDepth - 1))) (none, [])
      (((key, .string name) :: ms).map fun m => (m.1, m.2.compact)) (some t, ms.reverse) := by
    have rest := @takes_content τ key ofName (some t) [] ms others
    rw [List.append_nil] at rest
    refine .cons (by simp [taggedMember]; rfl) ?_ rest
    intro s ends
    simp [reads_tag known s ends]
  rw [Value.compact, compactMembers_eq]
  generalize body : separated [comma] ((((key, Value.string name) :: ms).map
    fun m => (m.1, m.2.compact)).map memberBytes) ++ closeBrace :: s = u
  have whole : openBrace :: separated [comma] ((((key, Value.string name) :: ms).map
      fun m => (m.1, m.2.compact)).map memberBytes) ++ [closeBrace] ++ s = openBrace :: u := by
    simp [← body]
  have read := takes.members s body
  rw [whole, Json.tagged, skipSpace_cons _ (by decide)]
  simp [read, bind, Except.bind, pure, Except.pure]

end Tags

/-! ## Fields -/

/-- The text of a string is its own. -/
@[simp]
lemma text?_string (t : String) : (Value.string t).text? = some t :=
  rfl

/-- The texts of a list of texts are its own. -/
@[simp]
lemma texts?_texts (ts : List String) : (Value.texts ts).texts? = some ts := by
  induction ts with
  | nil => rfl
  | cons t ts ih =>
    simp only [Value.texts, Value.texts?] at ih
    simp [Value.texts, Value.texts?, ih]

end MetricRegistry.Json
