import MetricRegistry.Catalog.MutationJson
import MetricRegistry.Proofs.Json.Tagged

/-!
# Changes are read back
-/

namespace MetricRegistry.Catalog
open Json

/-- Every kind of mutation is found by its name. -/
lemma MutationKind.ofWire?_wire (kind : MutationKind) : ofWire? kind.wire = some kind := by
  cases kind <;> rfl

/-- Every type is found by its name. -/
@[simp]
lemma FieldType.ofValue?_wire (type : FieldType) : ofValue? (.string type.wire) = some type :=
  ofWire?_wire type

namespace Mutation

/-- Every member of a mutation is kept and is not its tag. -/
lemma kept_toMembers (m : Mutation) :
    ∀ member ∈ m.toMembers, member.1 ≠ "kind" ∧ Kept member.2 := by
  cases m <;> simp [toMembers]

/-- A mutation is made of its own members. -/
lemma ofContent?_toMembers (m : Mutation) : ofContent? (.named m.toMembers) m.kind = some m := by
  cases m <;> simp [toMembers, kind, ofContent?, Content.fields?, Value.named, Value.text?]

/-- A mutation is read back from its text. -/
lemma reads (m : Mutation) : Reads read m.toJson m := by
  intro s ends
  have tagged : Reads (tagged "kind" MutationKind.ofWire?) m.toJson ⟨m.kind, .named m.toMembers⟩ :=
    Reads.tagged m.kind.ofWire?_wire m.kept_toMembers
  simp [read, tagged s ends, ofContent?_toMembers, bind, Except.bind, pure, Except.pure]

end Mutation

end MetricRegistry.Catalog
