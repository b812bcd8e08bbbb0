import Mathlib.Data.List.TakeWhile
import MetricRegistry.Proofs.Catalog.RoundTrip
import MetricRegistry.Proofs.Json.Truncation

/-!
# Damaged documents

No beginning of a catalog's document is a document, and nothing but blanks may stand behind one.
`Schema.needs` says that the reader of catalogs finds a document cut short wherever it is cut; it is
built from the lists of metrics and of fields in it, down to their scalars. `Schema.damage_found` is
about whole documents, and says which fault is found.
-/

namespace MetricRegistry.Catalog
open Ascii Json

/-! ## Documents that are cut short -/

/-- No type is read from a part of its text. -/
lemma needs_fieldType (t : FieldType) : Needs FieldType.read (Value.string t.wire).compact := by
  intro p cut
  rw [Value.compact, quoted, List.cons_append] at cut
  obtain rfl | ⟨p, rfl, short⟩ := cut_cons.mp cut
  · rfl
  · have start : skipSpace (quote :: p) = quote :: p := skipSpace_cons p (by decide)
    simp [FieldType.read, start, needs_string t.wire p short, bind, Except.bind]

/-- No list of names is read from a part of its text. -/
lemma needs_texts (ts : List String) : Needs (list text) (Value.texts ts).compact := by
  rw [Value.texts, Value.compact, compactItems_map]
  refine Needs.list fun t _ => ⟨reads_text t, (needs_text t).breaks, ?_⟩
  exact ⟨quote, _, rfl, by decide, by decide⟩

/-- No list of objects is read from a part of its text. -/
lemma needs_objects {α : Type} {read : Reader α} {f : α → Value} {xs : List α}
    (reads : ∀ x, Reads read (f x).compact x) (needs : ∀ x, Needs read (f x).compact)
    (object : ∀ x, ∃ ms, f x = .object ms) :
    Needs (list read) (Value.array (xs.map f)).compact := by
  rw [Value.compact, compactItems_map]
  refine Needs.list fun x _ => ⟨reads x, (needs x).breaks, ?_⟩
  obtain ⟨ms, eq⟩ := object x
  exact ⟨openBrace, _, by rw [eq, Value.compact]; rfl, by decide, by decide⟩

/-- No field is read from a part of its text. -/
lemma Field.needs (f : Field) : Needs Field.read f.toValue.compact := by
  rw [f.compact_toValue]
  refine f.fills.needs ?_ FieldDraft.finish
  simp only [members, List.forall_mem_cons]
  exact ⟨fragile_slot rfl (breaks_uint32 _), fragile_slot rfl (needs_text _).breaks,
    fragile_slot rfl (needs_fieldType _).breaks, fragile_slot rfl (needs_texts _).breaks, nofun⟩

/-- No metric is read from a part of its text. -/
lemma Metric.needs (m : Metric) : Needs Metric.read m.toValue.compact := by
  rw [m.compact_toValue]
  refine m.fills.needs ?_ MetricDraft.finish
  simp only [members, List.forall_mem_cons]
  exact ⟨fragile_slot rfl (breaks_uint32 _), fragile_slot rfl (needs_text _).breaks,
    fragile_slot rfl (needs_texts _).breaks, fragile_slot rfl (breaks_uint32 _),
    fragile_slot rfl (needs_objects Field.reads Field.needs fun _ => ⟨_, rfl⟩).breaks, nofun⟩

/-- No catalog is read from a part of its text. -/
lemma Schema.needs (s : Schema) : Needs Schema.read s.encode := by
  rw [s.encode_eq]
  refine s.fills.needs ?_ SchemaDraft.finish
  simp only [members, List.forall_mem_cons]
  exact ⟨fragile_slot rfl (needs_text _).breaks, fragile_slot rfl (needs_texts _).breaks,
    fragile_slot rfl (needs_texts _).breaks, fragile_slot rfl (breaks_uint32 _),
    fragile_slot rfl (needs_objects Metric.reads Metric.needs fun _ => ⟨_, rfl⟩).breaks, nofun⟩

/-! ## Documents with something behind them -/

/-- The bytes that are skipped as space are the blanks of JSON. -/
lemma skipSpace_eq_nil {t : List UInt8} :
    skipSpace t = [] ↔ t.all [space, tab, lineFeed, carriageReturn].contains = true := by
  have blank (b : UInt8) : [space, tab, lineFeed, carriageReturn].contains b = isSpace b := by
    rw [Bool.eq_iff_iff]
    simp [isSpace, or_assoc, or_left_comm]
  simp only [blank, List.all_eq_true]
  exact List.dropWhile_eq_nil_iff

/-- A document of a catalog that passes the check is found to be cut short wherever it is cut; with
blanks behind it it is decoded as without, and with anything else behind it it is malformed. -/
theorem Schema.damage_found {s : Schema} (checked : s.check = .ok ()) :
    (∀ p, p <+: s.encode → p ≠ s.encode → Schema.decode p = .error (.serialization .truncated))
      ∧ ∀ t, Schema.decode (s.encode ++ t)
        = if t.all [space, tab, lineFeed, carriageReturn].contains then .ok s
          else .error (.serialization .malformed) := by
  refine ⟨fun p front ne => ?_, fun t => ?_⟩
  · rw [decode, s.needs.whole ⟨front, ne⟩]
    rfl
  · rw [decode, whole, s.read_append]
    simp only [bind, Except.bind, ← skipSpace_eq_nil]
    cases skipSpace t with
    | nil => simp [Except.mapError, checked, pure, Except.pure]
    | cons b t => simp [Except.mapError, throw, throwThe, MonadExceptOf.throw]

/-- A document with an escape and a character of two bytes is cut inside each of them. -/
theorem Schema.damage_found_escape :
    let s : Schema := ⟨⟨"\"é", [], []⟩, .empty⟩
    s.check = .ok ()
      ∧ Schema.decode (s.encode.take 12) = .error (.serialization .truncated)
      ∧ Schema.decode (s.encode.take 14) = .error (.serialization .truncated)
      ∧ Schema.decode (s.encode ++ [lineFeed, space]) = .ok s
      ∧ Schema.decode (s.encode ++ [space, comma]) = .error (.serialization .malformed) := by
  intro s
  have checked : s.check = .ok () := by decide +kernel
  obtain ⟨cut, more⟩ := Schema.damage_found checked
  exact ⟨checked, cut _ (List.take_prefix ..) (by decide +kernel),
    cut _ (List.take_prefix ..) (by decide +kernel), (more _).trans (if_pos (by decide)),
    (more _).trans (if_neg (by decide))⟩

end MetricRegistry.Catalog
