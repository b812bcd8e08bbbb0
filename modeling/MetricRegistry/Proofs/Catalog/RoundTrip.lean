import MetricRegistry.Catalog.Document
import MetricRegistry.Proofs.Json.Containers
import MetricRegistry.Proofs.Outcome

/-!
# Documents give back their catalogs

`Schema.reads` says that the reader of catalogs takes exactly the document of a catalog off the
front of a text, for any texts, ids and counters in it; it is built from `Metric.reads` and
`Field.reads`, which say the same one and two levels down. No rule of the catalog is needed for
that. `Schema.decode` refuses what breaks a rule besides, so the round trip `decode_encode` holds of
exactly the catalogs that pass `Schema.check`. A tenant by itself is read back too (`Tenant.reads`).
-/

namespace MetricRegistry.Catalog
open Ascii Json

/-! ## Types and lists of objects -/

/-- A type is read from what is written for it. -/
lemma reads_fieldType (t : FieldType) : Reads FieldType.read (Value.string t.wire).compact t := by
  intro s _
  have start (u : List UInt8) : skipSpace (quote :: u) = quote :: u := skipSpace_cons u (by decide)
  simp [Value.compact, quoted, FieldType.read, start, string_quoted, bind, Except.bind,
    FieldType.ofName, pure, Except.pure]

/-- A list of objects is read from what is written for it. -/
lemma reads_objects {α : Type} {read : Reader α} {f : α → Value} {xs : List α}
    (reads : ∀ x, Reads read (f x).compact x) (object : ∀ x, ∃ ms, f x = .object ms) :
    Reads (list read) (Value.array (xs.map f)).compact xs := by
  rw [Value.compact, compactItems_map]
  refine Reads.list (fun x _ => reads x) fun x _ => ?_
  obtain ⟨ms, eq⟩ := object x
  exact ⟨openBrace, _, by rw [eq, Value.compact]; rfl, by decide, by decide⟩

/-! ## Fields, metrics and catalogs -/

/-- The members of a field as they are written. -/
def Field.members (f : Field) : List (String × List UInt8) :=
  [("id", (Value.nat f.id.toNat).compact),
    ("user_field_name", (Value.string f.naming.name).compact),
    ("type", (Value.string f.type.wire).compact),
    ("aliases", (Value.texts f.naming.aliases).compact)]

/-- The members of a field fill its draft. -/
lemma Field.fills (f : Field) : Fills FieldDraft.slots {} f.members
    ⟨some f.id, some f.naming.name, some f.type, some f.naming.aliases⟩ :=
  .cons rfl ((reads_uint32 _).fill _) <|
    .cons rfl ((reads_text _).fill _) <|
    .cons rfl ((reads_fieldType _).fill _) <|
    .cons rfl ((reads_texts _).fill _) .nil

/-- A field is written as an object of its members. -/
lemma Field.compact_toValue (f : Field) : f.toValue.compact = objectBytes f.members := by
  rw [toValue, compact_object]
  rfl

/-- A field is read from what is written for it. -/
lemma Field.reads (f : Field) : Reads Field.read f.toValue.compact f := by
  intro s _
  rw [f.compact_toValue, read]
  exact f.fills.record FieldDraft.finish rfl s

/-- The members of a metric as they are written. -/
def Metric.members (m : Metric) : List (String × List UInt8) :=
  [("id", (Value.nat m.id.toNat).compact),
    ("user_visible_name", (Value.string m.naming.name).compact),
    ("aliases", (Value.texts m.naming.aliases).compact),
    ("next_field_id", (Value.nat m.fields.next.toNat).compact),
    ("fields", (Value.array (m.fields.entries.map Field.toValue)).compact)]

/-- The members of a metric fill its draft. -/
lemma Metric.fills (m : Metric) : Fills MetricDraft.slots {} m.members
    ⟨some m.id, some m.naming.name, some m.naming.aliases, some m.fields.next,
      some m.fields.entries⟩ :=
  .cons rfl ((reads_uint32 _).fill _) <|
    .cons rfl ((reads_text _).fill _) <|
    .cons rfl ((reads_texts _).fill _) <|
    .cons rfl ((reads_uint32 _).fill _) <|
    .cons rfl ((reads_objects Field.reads fun _ => ⟨_, rfl⟩).fill _) .nil

/-- A metric is written as an object of its members. -/
lemma Metric.compact_toValue (m : Metric) : m.toValue.compact = objectBytes m.members := by
  rw [toValue, compact_object]
  rfl

/-- A metric is read from what is written for it. -/
lemma Metric.reads (m : Metric) : Reads Metric.read m.toValue.compact m := by
  intro s _
  rw [m.compact_toValue, read]
  exact m.fills.record MetricDraft.finish rfl s

/-- The members of a catalog as they are written. -/
def Schema.members (s : Schema) : List (String × List UInt8) :=
  [("org_id", (Value.string s.orgId).compact),
    ("metric_key_aliases", (Value.texts s.metricKeys).compact),
    ("timestamp_patterns", (Value.texts s.timestampFormats).compact),
    ("next_metric_id", (Value.nat s.metrics.next.toNat).compact),
    ("metrics", (Value.array (s.metrics.entries.map Metric.toValue)).compact)]

/-- The members of a catalog fill its draft. -/
lemma Schema.fills (s : Schema) : Fills SchemaDraft.slots {} s.members
    ⟨some s.orgId, some s.metricKeys, some s.timestampFormats, some s.metrics.next,
      some s.metrics.entries⟩ :=
  .cons rfl ((reads_text _).fill _) <|
    .cons rfl ((reads_texts _).fill _) <|
    .cons rfl ((reads_texts _).fill _) <|
    .cons rfl ((reads_uint32 _).fill _) <|
    .cons rfl ((reads_objects Metric.reads fun _ => ⟨_, rfl⟩).fill _) .nil

/-- A catalog is written as an object of its members. -/
lemma Schema.encode_eq (s : Schema) : s.encode = objectBytes s.members := by
  rw [encode, toValue, compact_object]
  rfl

/-- A catalog is read off the front of any text that begins with its document. -/
lemma Schema.read_append (s : Schema) (t : List UInt8) :
    Schema.read (s.encode ++ t) = .ok (s, t) := by
  rw [s.encode_eq, read]
  exact s.fills.record SchemaDraft.finish rfl t

/-- A catalog is read from its document. -/
lemma Schema.reads (s : Schema) : Reads Schema.read s.encode s :=
  fun t _ => s.read_append t

/-! ## Tenants -/

/-- The members of a tenant as they are written. -/
def Tenant.members (t : Tenant) : List (String × List UInt8) :=
  [("org_id", (Value.string t.orgId).compact),
    ("metric_key_aliases", (Value.texts t.metricKeys).compact),
    ("timestamp_patterns", (Value.texts t.timestampFormats).compact)]

/-- The members of a tenant fill its draft. -/
lemma Tenant.fills (t : Tenant) : Fills TenantDraft.slots {} t.members
    ⟨some t.orgId, some t.metricKeys, some t.timestampFormats⟩ :=
  .cons rfl ((reads_text _).fill _) <|
    .cons rfl ((reads_texts _).fill _) <|
    .cons rfl ((reads_texts _).fill _) .nil

/-- A tenant is read from what is written for it. -/
lemma Tenant.reads (t : Tenant) : Reads Tenant.read (Value.object t.toMembers).compact t := by
  intro s _
  rw [compact_object]
  exact t.fills.record TenantDraft.finish rfl s

/-- Any tenant is read from JSON, whatever its formats are. -/
lemma Tenant.ofValue_toMembers (t : Tenant) : Tenant.ofValue (.object t.toMembers) = .ok t := by
  rw [Tenant.ofValue, t.reads.whole]
  rfl

/-! ## Documents -/

/-- A catalog that was decoded passes its check. -/
lemma Schema.check_of_decode {document : List UInt8} {s : Schema}
    (decoded : Schema.decode document = .ok s) : s.check = .ok () := by
  simp only [Schema.decode, Except.bind_eq_ok, Except.mapError_eq_ok, Except.pure_eq_ok] at decoded
  obtain ⟨t, -, ⟨⟩, checked, rfl⟩ := decoded
  exact checked

/-- The document of a catalog that passes the check is decoded to it. -/
lemma Schema.decode_encode {s : Schema} (checked : s.check = .ok ()) :
    Schema.decode s.encode = .ok s := by
  simp [Schema.decode, s.reads.whole, checked]

/-- Different catalogs have different documents, whether they pass the check or not. -/
lemma Schema.encode_injective : Function.Injective Schema.encode := by
  intro s t eq
  have back := s.reads.whole
  rw [eq, t.reads.whole] at back
  exact (Except.ok.inj back).symm

/-- The document of a catalog gives back exactly the catalogs that pass the check. -/
theorem Schema.document_roundTrip :
    (∀ s : Schema, Schema.decode s.encode = .ok s ↔ s.check = .ok ())
      ∧ Function.Injective Schema.encode
      ∧ ∀ document s, Schema.decode document = .ok s → Schema.decode s.encode = .ok s := by
  refine ⟨fun s => ⟨Schema.check_of_decode, Schema.decode_encode⟩, Schema.encode_injective, ?_⟩
  intro document s decoded
  exact Schema.decode_encode (Schema.check_of_decode decoded)

/-- A document with blanks, escapes and members in another order is read, written and read again. -/
theorem Schema.document_roundTrip_escaped :
    ∃ s : Schema, s.metricKeys = ["a\x00😀/"]
      ∧ Schema.decode (Text.utf8 ("\x7b \"metric_key_aliases\":[\"a\\u0000\\ud83d\\ude00\\/\"],\t"
        ++ "\"next_metric_id\":4294967295,\"org_id\" :\"\\n\"\x7d")) = .ok s
      ∧ Schema.decode s.encode = .ok s := by
  have decoded : Schema.decode
      (Text.utf8 ("\x7b \"metric_key_aliases\":[\"a\\u0000\\ud83d\\ude00\\/\"],\t"
        ++ "\"next_metric_id\":4294967295,\"org_id\" :\"\\n\"\x7d"))
      = .ok ⟨⟨"\n", ["a\x00😀/"], []⟩, ⟨4294967295, []⟩⟩ := by
    decide +kernel
  exact ⟨_, rfl, decoded, Schema.document_roundTrip.2.2 _ _ decoded⟩

end MetricRegistry.Catalog
