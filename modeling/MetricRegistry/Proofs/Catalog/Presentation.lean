import MetricRegistry.Catalog.Document
import MetricRegistry.Proofs.Json.Acceptance
import MetricRegistry.Proofs.Json.Rearrangement

/-!
# Catalogs in another presentation

A catalog is decoded to the same whatever blanks its document has, in whatever order its members and
those of its metrics and fields stand, whatever unknown members they have, and whether they write
their empty lists out or not. `FieldRearranged`, `MetricRearranged` and `SchemaRearranged` say what
may be changed at each level, and `Schema.decode_rearranged` that nothing comes of it. That every
document has a tree to be rearranged, as it says too, is because the readers are strict
(`strict_schema`).
-/

namespace MetricRegistry.Catalog
open Ascii Json

/-! ## Types -/

/-- What a type is taken for: a text by its name, and an object by the name of its one member, which
is null. -/
inductive Types : Tree → FieldType → Prop where
  | short {t name type} :
    Names Json.string t name →
    FieldType.ofName name = .ok type →
    Types (.string t) type
  | long {t name type} :
    Names Json.string t name →
    FieldType.ofName name = .ok type →
    Types (.object [(t, .word .null)]) type

/-- An object is closed where it has no more members. -/
lemma closeObject_spelled {ms : List (StringText × Tree)} {bytes : List UInt8}
    (members : Spells (.members false ms) bytes) (rest r : List UInt8) :
    closeObject (bytes ++ rest) = .ok r ↔ r = rest ∧ ms = [] := by
  cases members with
  | @endMembers _ blanks blank =>
    have stop := skipSpace_ink blank (b := closeBrace) (by decide) rest
    simp [closeObject, stop, eq_comm]
  | member separates =>
    cases separates with
    | @comma blanks' blank' =>
      have comma (s : List UInt8) := skipSpace_ink blank' (b := comma) (by decide) s
      have ne : Ascii.comma ≠ closeBrace := by decide
      simp [closeObject, comma, ne]

/-- The content of the long form of a type is `null`, with nothing after it. -/
lemma readNoContent_spelled {v : Tree} {ms : List (StringText × Tree)} {bytes more : List UInt8}
    (value : Spells (.value v) bytes) (members : Spells (.members false ms) more)
    (rest r : List UInt8) :
    FieldType.readNoContent (bytes ++ (more ++ rest)) = .ok r
      ↔ r = rest ∧ v = .word .null ∧ ms = [] := by
  obtain ⟨blanks, tail, blank, tailed, rfl⟩ := spells_value_iff.mp value
  rw [List.append_assoc, List.cons_append, FieldType.readNoContent, skipSpace_value blank]
  by_cases isNull : v.head = lowerN
  · obtain rfl := v.head_iff.2.2.2.mp isNull
    obtain rfl := tailed
    have passed : word [lowerU, 0x6C, 0x6C] (Word.null.tail ++ (more ++ rest))
        = .ok (more ++ rest) := word_append Word.null.tail (more ++ rest)
    simp [isNull, passed, closeObject_spelled members]
  · have other : v ≠ .word .null := fun eq => isNull (v.head_iff.2.2.2.mpr eq)
    simp [isNull, other]

/-- A type follows the string or the object that it is read from. -/
lemma follows_fieldType : Follows FieldType.read Types := by
  intro v bytes rest spells ends type r
  obtain ⟨blanks, tail, blank, tailed, rfl⟩ := spells_value_iff.mp spells
  rw [List.append_assoc, List.cons_append, FieldType.read, skipSpace_value blank]
  by_cases isString : v.head = quote
  · obtain ⟨t, rfl⟩ := v.head_iff.1.mp isString
    obtain rfl := tailed
    simp only [isString, beq_self_eq_true, if_true, List.append_assoc, List.singleton_append,
      Except.bind_eq_ok, Prod.exists, uniformName_string.read_iff, Except.pure_eq_ok,
      Prod.mk.injEq]
    constructor
    · rintro ⟨name, _, ⟨rfl, named⟩, _, known, rfl, rfl⟩
      exact ⟨rfl, .short named known⟩
    · rintro ⟨rfl, types⟩
      cases types with
      | short named known => exact ⟨_, _, ⟨rfl, named⟩, _, known, rfl, rfl⟩
  -- the long form is an object of one member, whose value has no content
  by_cases isObject : v.head = openBrace
  · obtain ⟨ms, rfl⟩ := v.head_iff.2.2.1.mp isObject
    have ne : openBrace ≠ quote := by decide
    simp only [isObject, beq_iff_eq, ne, if_false, if_true]
    cases tailed with
    | @endMembers _ blanks blank =>
      have stop := skipSpace_ink blank (b := closeBrace) (by decide) rest
      have empty : nextName true (blanks ++ [closeBrace] ++ rest) = .ok none := by
        simp [nextName, stop]
      rw [empty]
      constructor
      · rintro ⟨⟩
      · rintro ⟨-, types⟩
        cases types
    | @member _ t w ms before blanks blanks' bytes more separates blank blank' value members =>
      have next :=
        nextName_spelled separates blank t (blanks' ++ colon :: (bytes ++ (more ++ rest)))
      have toValue := nameEnd_spelled blank' (bytes ++ (more ++ rest))
      simp only [List.append_assoc, List.cons_append]
      rw [next]
      simp only [Except.bind_eq_ok, Except.ok.injEq, exists_eq_left', Prod.exists,
        uniformName_string.read_iff, Except.pure_eq_ok, Prod.mk.injEq]
      constructor
      · rintro ⟨name, _, ⟨rfl, named⟩, _, known, s, colon, _, content, rfl, rfl⟩
        rw [toValue] at colon
        cases colon
        obtain ⟨rfl, rfl, rfl⟩ := (readNoContent_spelled value members _ _).mp content
        exact ⟨rfl, .long named known⟩
      · rintro ⟨rfl, types⟩
        cases types with
        | long named known =>
          have content := (readNoContent_spelled value members r r).mpr ⟨rfl, rfl, rfl⟩
          exact ⟨_, _, ⟨rfl, named⟩, _, known, _, toValue, _, content, rfl, rfl⟩
  · have none : ¬ Types v type := by
      rintro (_ | _)
      · exact isString rfl
      · exact isObject rfl
    simp [isString, isObject, none]

/-- A type is the same for every spelling of its tree. -/
lemma uniform_fieldType : Uniform FieldType.read :=
  follows_fieldType.uniform

/-! ## Fields, metrics and catalogs -/

/-- The members of a field are read into places of their own. -/
lemma FieldDraft.tidy : Tidy slots :=
  Place.tidy [.of uniform_uint32, .of uniform_text, .of uniform_fieldType,
    .of (uniform_list uniform_text)] (by simp [Place.Apart, Place.of])

/-- A field is the same for every spelling of its tree. -/
lemma uniform_field : Uniform Field.read :=
  FieldDraft.tidy.follows.uniform

/-- What may be changed about a field. -/
abbrev FieldRearranged : Tree → Tree → Prop :=
  Rearranged ["id", "user_field_name", "type", "aliases"] ["aliases"] fun _ _ _ => False

/-- A field bears its members in any order, and may lack its aliases. -/
lemma FieldDraft.bears : Bears slots finish ["id", "user_field_name", "type", "aliases"]
    ["aliases"] fun _ _ _ => False where
  known := by simp [slots]
  lists := by
    simp only [slots, List.forall_mem_cons, Slot.of_name]
    refine ⟨by simp, by simp, by simp, fun _ _ _ puts => ?_, nofun⟩
    exact finish_of_puts_empty uniform_text (fun draft free => by simp [finish, free]) puts
  inside := nofun

/-- The members of a metric are read into places of their own. -/
lemma MetricDraft.tidy : Tidy slots :=
  Place.tidy [.of uniform_uint32, .of uniform_text, .of (uniform_list uniform_text),
    .of uniform_uint32, .of (uniform_list uniform_field)] (by simp [Place.Apart, Place.of])

/-- A metric is the same for every spelling of its tree. -/
lemma uniform_metric : Uniform Metric.read :=
  MetricDraft.tidy.follows.uniform

/-- What may be changed about a metric. -/
abbrev MetricRearranged : Tree → Tree → Prop :=
  Rearranged ["id", "user_visible_name", "aliases", "next_field_id", "fields"] ["aliases", "fields"]
    fun name v v' => name = "fields" ∧ FieldRearranged v v'

/-- A metric bears its members in any order, may lack its lists, and bears changes in its fields. -/
lemma MetricDraft.bears :
    Bears slots finish ["id", "user_visible_name", "aliases", "next_field_id", "fields"]
      ["aliases", "fields"] fun name v v' => name = "fields" ∧ FieldRearranged v v' where
  known := by simp [slots]
  lists := by
    simp only [slots, List.forall_mem_cons, Slot.of_name]
    refine ⟨by simp, by simp, fun _ _ _ puts => ?_, by simp, fun _ _ _ puts => ?_, nofun⟩
    · exact finish_of_puts_empty uniform_text (fun draft free => by simp [finish, free]) puts
    · exact finish_of_puts_empty uniform_field (fun draft free => by simp [finish, free]) puts
  inside := by
    simp only [slots, List.forall_mem_cons, Slot.of_name]
    refine ⟨by simp, by simp, by simp, by simp, ?_, nofun⟩
    rintro v v' ⟨-, rearranged⟩ draft next vs ws puts
    exact puts.replace uniform_field fun x => rearranged.means FieldDraft.tidy FieldDraft.bears

/-- The members of a catalog are read into places of their own. -/
lemma SchemaDraft.tidy : Tidy slots :=
  Place.tidy [.of uniform_text, .of (uniform_list uniform_text), .of (uniform_list uniform_text),
    .of uniform_uint32, .of (uniform_list uniform_metric)] (by simp [Place.Apart, Place.of])

/-- A catalog is the same for every spelling of its tree. -/
lemma uniform_schema : Uniform Schema.read :=
  SchemaDraft.tidy.follows.uniform

/-- What may be changed about a catalog. -/
abbrev SchemaRearranged : Tree → Tree → Prop :=
  Rearranged ["org_id", "metric_key_aliases", "timestamp_patterns", "next_metric_id", "metrics"]
    ["metric_key_aliases", "timestamp_patterns", "metrics"]
    fun name v v' => name = "metrics" ∧ MetricRearranged v v'

/-- A catalog bears its members in any order, may lack its lists and bears changed metrics. -/
lemma SchemaDraft.bears : Bears slots finish
    ["org_id", "metric_key_aliases", "timestamp_patterns", "next_metric_id", "metrics"]
    ["metric_key_aliases", "timestamp_patterns", "metrics"]
    fun name v v' => name = "metrics" ∧ MetricRearranged v v' where
  known := by simp [slots]
  lists := by
    simp only [slots, List.forall_mem_cons, Slot.of_name]
    refine ⟨by simp, fun _ _ _ puts => ?_, fun _ _ _ puts => ?_, by simp, fun _ _ _ puts => ?_,
      nofun⟩
    · exact finish_of_puts_empty uniform_text (fun draft free => by simp [finish, free]) puts
    · exact finish_of_puts_empty uniform_text (fun draft free => by simp [finish, free]) puts
    · exact finish_of_puts_empty uniform_metric (fun draft free => by simp [finish, free]) puts
  inside := by
    simp only [slots, List.forall_mem_cons, Slot.of_name]
    refine ⟨by simp, by simp, by simp, by simp, ?_, nofun⟩
    rintro v v' ⟨-, rearranged⟩ draft next vs ws puts
    exact puts.replace uniform_metric fun x => rearranged.means MetricDraft.tidy MetricDraft.bears

/-! ## Whatever is read is JSON -/

/-- What is accepted as the content of the long form of a type is `null`. -/
lemma readNoContent_ahead {s r : List UInt8} (read : FieldType.readNoContent s = .ok r) :
    ∃ s', Ahead (.value (.word .null)) s s' ∧ Ahead (.members false []) s' r := by
  simp only [FieldType.readNoContent] at read
  split at read
  · cases read
  case h_2 b rest start =>
    split at read
    case isFalse => cases read
    case isTrue eq =>
      obtain rfl := eq_of_beq eq
      simp only [Except.bind_eq_ok] at read
      obtain ⟨s', passed, close⟩ := read
      exact ⟨s', .word start passed, .endMembers close⟩

/-- What is accepted as a type is a value. -/
lemma strict_fieldType : Strict FieldType.read := by
  intro s type r read
  simp only [FieldType.read] at read
  split at read
  · cases read
  case h_2 b rest start =>
    split at read
    case isTrue eq =>
      obtain rfl := eq_of_beq eq
      simp only [Except.bind_eq_ok, Prod.exists, Except.pure_eq_ok, Prod.mk.injEq] at read
      obtain ⟨name, r, named, _, -, -, rfl⟩ := read
      obtain ⟨t, string⟩ := Ahead.string start (string_closes named)
      exact ⟨_, string⟩
    split at read
    case isFalse => cases read
    case isTrue eq =>
      obtain rfl := eq_of_beq eq
      simp only [Except.bind_eq_ok] at read
      obtain ⟨next, first, read⟩ := read
      cases next with
      | none => cases read
      | some s' =>
        simp only [Except.bind_eq_ok, Prod.exists, Except.pure_eq_ok, Prod.mk.injEq] at read
        obtain ⟨name, _, named, _, -, toValue, colon, r, content, -, rfl⟩ := read
        obtain ⟨_, value, members⟩ := readNoContent_ahead content
        obtain ⟨t, members⟩ := Ahead.member first (string_closes named) colon value members
        exact ⟨_, .object start members⟩

/-- What is accepted as a field is a value. -/
lemma strict_field : Strict Field.read :=
  strict_record (by
    simp only [FieldDraft.slots, List.forall_mem_cons]
    exact ⟨strict_of strict_uint32, strict_of strict_text, strict_of strict_fieldType,
      strict_of (strict_list strict_text), nofun⟩) _ _

/-- What is accepted as a metric is a value. -/
lemma strict_metric : Strict Metric.read :=
  strict_record (by
    simp only [MetricDraft.slots, List.forall_mem_cons]
    exact ⟨strict_of strict_uint32, strict_of strict_text, strict_of (strict_list strict_text),
      strict_of strict_uint32, strict_of (strict_list strict_field), nofun⟩) _ _

/-- What is accepted as a catalog is a value. -/
lemma strict_schema : Strict Schema.read :=
  strict_record (by
    simp only [SchemaDraft.slots, List.forall_mem_cons]
    exact ⟨strict_of strict_text, strict_of (strict_list strict_text),
      strict_of (strict_list strict_text), strict_of strict_uint32,
      strict_of (strict_list strict_metric), nofun⟩) _ _

/-! ## Documents -/

/-- Decoding does not depend on how a document is presented: whatever is decoded is JSON, and every
text of a rearranged document is decoded to the same. -/
theorem Schema.decode_rearranged {text : List UInt8} {s : Schema}
    (decoded : Schema.decode text = .ok s) :
    (∃ v, Spelled text v) ∧
      ∀ v v' text', Spelled text v → SchemaRearranged v v' → Spelled text' v' →
        Schema.decode text' = .ok s := by
  simp only [Schema.decode, Except.bind_eq_ok, Except.mapError_eq_ok, Except.pure_eq_ok]
    at decoded ⊢
  obtain ⟨s, read, _, checked, rfl⟩ := decoded
  refine ⟨strict_schema.spelled read, fun v v' text' spelled rearranged spelled' => ?_⟩
  have means := (uniform_schema.whole_iff spelled s).mp read
  have means' := rearranged.means SchemaDraft.tidy SchemaDraft.bears means
  exact ⟨s, (uniform_schema.whole_iff spelled' s).mpr means', _, checked, rfl⟩

/-- In a field the members are turned round, the aliases are left out and a unit is added; the
catalog is tagged, and spread out by blanks. -/
theorem Schema.decode_rearranged_tagged :
    let text (s : String) : Tree := .string (.of s)
    let number (n : ℕ) : Tree := .number (.of n)
    let field : Tree := .object [(.of "id", number 1), (.of "user_field_name", text "Load"),
      (.of "type", text "DOUBLE"), (.of "aliases", .array [])]
    let field' : Tree := .object [(.of "unit", .word .null), (.of "type", text "DOUBLE"),
      (.of "user_field_name", text "Load"), (.of "id", number 1)]
    let metric (f : Tree) : Tree := .object [(.of "fields", .array [f]), (.of "id", number 1),
      (.of "user_visible_name", text "CPU"), (.of "next_field_id", number 2)]
    let members (f : Tree) : List (StringText × Tree) := [(.of "metrics", .array [metric f]),
      (.of "org_id", text "acme"), (.of "next_metric_id", number 2)]
    let tags : StringText × Tree := (.of "tags", .array [.object [], .word .true])
    let s : Schema := ⟨⟨"acme", [], []⟩,
      ⟨2, [⟨1, ⟨"CPU", []⟩, ⟨2, [⟨1, ⟨"Load", []⟩, .double⟩]⟩⟩]⟩⟩
    Schema.decode (Tree.bytes [] (.object (members field))) = .ok s ∧
      Schema.decode (Tree.bytes [lineFeed, space] (.object (tags :: members field'))) = .ok s := by
  intro text number field field' metric members tags s
  have decoded : Schema.decode (Tree.bytes [] (.object (members field))) = .ok s := by
    decide +kernel
  have turned : FieldRearranged field field' :=
    .trans (.permute (List.reverse_perm _).symm)
      (.trans (.leave (names_of "aliases") (by simp)) (.insert (names_of "unit") (by simp)))
  have inMetric : MetricRearranged (metric field) (metric field') :=
    @Rearranged.nested _ _ _ _ _ [] field field' [] _ (names_of "fields") ⟨rfl, turned⟩
  have inSchema : SchemaRearranged (.object (members field)) (.object (members field')) :=
    @Rearranged.nested _ _ _ _ _ [] (metric field) (metric field') [] _ (names_of "metrics")
      ⟨rfl, inMetric⟩
  have tagged : SchemaRearranged (.object (members field)) (.object (tags :: members field')) :=
    inSchema.trans (.insert (names_of "tags") (by simp))
  exact ⟨decoded, (Schema.decode_rearranged decoded).2 _ _ _ (spelled_bytes blank_nil _) tagged
    (spelled_bytes (by decide) _)⟩

end MetricRegistry.Catalog
