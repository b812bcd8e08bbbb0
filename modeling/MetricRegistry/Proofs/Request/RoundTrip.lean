import MetricRegistry.Proofs.Catalog.MutationJson
import MetricRegistry.Request.Json

/-!
# Requests are read back

What a client writes for a request is what the registry reads: the object of a request holds every
field under its name, an absent one as `null`, and the reader looks each of them up among values
that it kept (`kept_toMembers`, `ofContent?_toMembers`). So `json_roundTrip` holds of every request
and, by the same two steps, of every change of a catalog.
-/

namespace MetricRegistry
open Catalog Json

/-- Every operation is found by its name. -/
lemma Operation.ofWire?_wire (operation : Operation) : ofWire? operation.wire = some operation := by
  cases operation <;> rfl

namespace Request

/-- A text that may be missing is read back from its buffer. -/
@[simp]
lemma kept_text (x : Option String) : Kept (.option .string x) :=
  kept_option kept_string x

/-- A list that may be missing is read back from its buffer. -/
@[simp]
lemma kept_list (x : Option (List String)) : Kept (.option .texts x) :=
  kept_option kept_texts x

/-- A type that may be missing is read back from its buffer. -/
@[simp]
lemma kept_type (x : Option FieldType) : Kept (.option (fun t => .string t.wire) x) := by
  apply kept_option
  intro t
  exact kept_string t.wire

/-- Every member of a request is kept and is not its tag. -/
lemma kept_toMembers (r : Request) : ∀ member ∈ r.toMembers, member.1 ≠ "op" ∧ Kept member.2 := by
  cases r <;>
    simp [toMembers, fieldMembers, metricMembers, orgMembers, changeMembers]

/-- A field is found absent if it was written so, and only then. -/
lemma optionalField_option {α : Type} {f : α → Value} {read : Value → Option α}
    (back : ∀ x, read (f x) = some x) (present : ∀ x, f x ≠ .null) (x : Option α) :
    optionalField read (some (.option f x)) = some x := by
  cases x with
  | none => rfl
  | some x => simp [optionalField, Value.option, Value.optional?, present x, back x]

/-- A text that may be missing is the one written. -/
@[simp]
lemma optionalField_text (x : Option String) :
    optionalField Value.text? (some (.option .string x)) = some x :=
  optionalField_option text?_string (fun _ => nofun) x

/-- A list that may be missing is the one written. -/
@[simp]
lemma optionalField_list (x : Option (List String)) :
    optionalField Value.texts? (some (.option .texts x)) = some x :=
  optionalField_option texts?_texts (fun _ => nofun) x

/-- A type that may be missing is the one written. -/
@[simp]
lemma optionalField_type (x : Option FieldType) :
    optionalField FieldType.ofValue? (some (.option (fun t => .string t.wire) x)) = some x :=
  optionalField_option FieldType.ofValue?_wire (fun _ => nofun) x

/-- A list is the one written. -/
@[simp]
lemma listField_texts (ts : List String) : listField (some (.texts ts)) = some ts :=
  texts?_texts ts

/-- The fields of a request are found in its members, each under its name. -/
lemma ofContent?_toMembers (r : Request) :
    ofContent? (.named r.toMembers) r.operation = some r := by
  cases r <;>
    simp [toMembers, fieldMembers, metricMembers, orgMembers, changeMembers, operation, ofContent?,
      changesOf, Content.namedFields?, Content.fields?, Value.named]

/-- A request is read back from its text. -/
lemma reads (r : Request) : Reads read r.toJson r := by
  intro s ends
  have tagged : Reads (tagged "op" Operation.ofWire?) r.toJson ⟨r.operation, .named r.toMembers⟩ :=
    Reads.tagged r.operation.ofWire?_wire r.kept_toMembers
  simp [read, tagged s ends, ofContent?_toMembers, bind, Except.bind, pure, Except.pure]

end Request

/-- Every request is what its text spells, and so is every change: texts of any characters, lists
that are empty or not, and what is absent come back as they were. -/
theorem json_roundTrip :
    (∀ r : Request, Request.ofJson r.toJson = .ok r)
      ∧ ∀ m : Mutation, Mutation.ofJson m.toJson = .ok m :=
  ⟨fun r => r.reads.whole, fun m => m.reads.whole⟩

end MetricRegistry
