import MetricRegistry.Proofs.Catalog.RoundTrip
import MetricRegistry.Proofs.Text.Numerals
import MetricRegistry.Timestamp.Format

/-!
# Formats that are refused

A format is refused if it is a pattern with a fault, which reads nothing, or if it is blank. A blank
one is a pattern without components (`read_plain`), which takes nothing but itself from a text, so
no date comes of it (`parseWith_blank`). Hence refused formats can be left out of a list
(`parseFirst_accepted`). `refused_inert` says so of tenants, which are read from documents and from
JSON with whatever formats stand there.
-/

namespace MetricRegistry.Timestamp
open Text

variable {text : String} {cs : List Char} {s : List UInt8} {f : Fields} {fault : FormatFault}

/-! ## Literal text -/

namespace Pattern

variable {budget rounds index opened : Nat} {c : Char}

/-- The items of a literal text. -/
def literals : List Char → List Item
  | [] => []
  | c :: cs => [.literal ((c :: cs).flatMap String.utf8EncodeChar)]

/-- A literal character joins the literals after it. -/
lemma consLiteral_literals (c : Char) (cs : List Char) :
    consLiteral c (literals cs) = literals (c :: cs) := by
  cases cs <;> simp [literals, consLiteral]

/-- A character that opens no component is a literal. -/
lemma run_items_of_ne (ne : c ≠ '[') : (items budget (rounds + 1)).run ⟨c :: cs, index, opened⟩
    = (consLiteral c <$> items budget rounds).run ⟨cs, index + byteCount [c], opened⟩ := by
  rw [items, EStateM.run_bind, EStateM.run_get]
  simp only [ne, imp_false, IsEmpty.forall_iff, implies_true, bind_pure_comp]
  rfl

/-- What holds no opening bracket is literal text. -/
lemma run_items_plain (plain : '[' ∉ cs) (enough : cs.length < rounds) :
    ∃ finish, (items budget rounds).run ⟨cs, index, opened⟩ = .ok (literals cs) finish := by
  induction cs generalizing rounds index with
  | nil =>
    obtain ⟨rounds, rfl⟩ := Nat.exists_eq_add_one_of_ne_zero (Nat.ne_zero_of_lt enough)
    exact ⟨_, rfl⟩
  | cons c cs ih =>
    obtain ⟨rounds, rfl⟩ := Nat.exists_eq_add_one_of_ne_zero (Nat.ne_zero_of_lt enough)
    obtain ⟨ne, plain⟩ := not_or.mp (mt List.mem_cons.mpr plain)
    have left : cs.length < rounds := Nat.lt_of_succ_lt_succ enough
    obtain ⟨finish, rest⟩ := @ih rounds (index + byteCount [c]) plain left
    refine ⟨finish, ?_⟩
    rw [run_items_of_ne (Ne.symm ne), ← consLiteral_literals, map_eq_pure_bind, EStateM.run_bind,
      rest]
    rfl

/-- A text without a bracket is a pattern of literals. -/
lemma read_plain (plain : '[' ∉ text.toList) : read text = .ok (literals text.toList) := by
  obtain ⟨finish, eq⟩ := @run_items_plain text.toList (3 * text.length + 3) (text.length + 1) 0 0
    plain (by simp [String.length_toList])
  rw [EStateM.run] at eq
  rw [read, eq]

end Pattern

/-- Literal text says nothing. -/
lemma fieldsOf?_literals (read : fieldsOf? (Pattern.literals cs) s = some f) : f = {} := by
  obtain ⟨⟨g, rest⟩, taken, whole⟩ := Option.bind_eq_some_iff.mp read
  obtain ⟨-, eq⟩ := Option.ite_none_right_eq_some.mp whole
  cases eq
  cases cs with
  | nil =>
    cases taken
    rfl
  | cons c cs =>
    obtain ⟨_, first, last⟩ := Option.bind_eq_some_iff.mp taken
    obtain ⟨_, -, eq⟩ := Option.map_eq_some_iff.mp first
    cases eq
    cases last
    rfl

/-! ## Formats -/

/-- A blank text is a pattern, as the keywords are not blank. -/
lemma ofText_blank (blank : ∀ c ∈ text.toList, isBlank c = true) :
    Format.ofText text = .ok (.pattern (Pattern.literals text.toList)) := by
  have plain : '[' ∉ text.toList := fun mem => absurd (blank _ mem) (by decide)
  have word {keyword : String} (ink : trim keyword ≠ "") : (text == keyword) = false := by
    rw [beq_eq_false_iff_ne]
    rintro rfl
    exact ink (trim_eq_empty.mpr blank)
  rw [Format.ofText, word (by decide), word (by decide), word (by decide), Pattern.read_plain plain]
  rfl

/-- A pattern of blanks takes no text. -/
lemma parseWith_blank (blank : ∀ c ∈ text.toList, isBlank c = true) (raw : String) :
    parseWith text raw = none := by
  rw [parseWith, ofText_blank blank]
  refine Option.eq_none_iff_forall_ne_some.mpr fun t read => ?_
  obtain ⟨f, taken, made⟩ := Option.bind_eq_some_iff.mp read
  rw [fieldsOf?_literals taken] at made
  cases made

/-- A format is refused if it is blank or a pattern with a fault. -/
lemma blank_or_malformed (refused : validateFormat text = .error fault) :
    (∀ c ∈ text.toList, isBlank c = true) ∨ ∃ problem, Format.ofText text = .error problem := by
  unfold validateFormat at refused
  split at refused
  case isTrue empty => exact .inl (trim_eq_empty.mp (eq_of_beq empty))
  case isFalse =>
    cases read : Format.ofText text with
    | ok format => simp [read] at refused
    | error problem => exact .inr ⟨problem, rfl⟩

/-- A pattern that is refused takes no text. -/
lemma parseWith_of_refused (refused : validateFormat text = .error fault) (raw : String) :
    parseWith text raw = none := by
  obtain blank | ⟨problem, malformed⟩ := blank_or_malformed refused
  · exact parseWith_blank blank raw
  · rw [parseWith, malformed]

/-- The formats among some texts that are not refused. -/
def accepted (texts : List String) : List String :=
  texts.filter fun text => (validateFormat text).toBool

/-- Patterns that are refused can be left out. -/
lemma parseFirst_accepted (texts : List String) (raw : String) :
    parseFirst (accepted texts) raw = parseFirst texts raw := by
  induction texts with
  | nil => rfl
  | cons text texts ih =>
    unfold parseFirst accepted at ih ⊢
    cases checked : validateFormat text with
    | ok =>
      rw [List.filter_cons_of_pos (by rw [checked]; rfl), List.findSome?_cons,
        List.findSome?_cons, ih]
    | error fault =>
      have unread := parseWith_of_refused checked raw
      rw [List.filter_cons_of_neg (by rw [checked]; exact Bool.false_ne_true), ih,
        List.findSome?_cons, unread]

end MetricRegistry.Timestamp

namespace MetricRegistry.Catalog
open Timestamp

/-! ## Tenants -/

/-- The tenant without the formats that are refused. -/
def Tenant.withoutRefused (t : Tenant) : Tenant :=
  { t with timestampFormats := accepted t.timestampFormats }

/-- A format that is refused reads no text, also if it is blank. Any formats may come with a tenant
that is read from a document or from JSON, and no timestamp is read otherwise when the refused ones
among them are left out. -/
theorem Tenant.refused_inert :
    (∀ text fault, validateFormat text = .error fault → ∀ raw, parseWith text raw = none)
      ∧ (∀ text, (∀ c ∈ text.toList, Text.isBlank c = true) → validateFormat text = .error .blank)
      ∧ ∀ t : Tenant, (∃ document s, Schema.decode document = .ok s ∧ s.toTenant = t)
        ∧ (∃ v, Tenant.ofValue v = .ok t)
        ∧ ∀ raw, t.withoutRefused.timestamp? raw = t.timestamp? raw := by
  refine ⟨fun _ _ => parseWith_of_refused, fun text blank => ?_, fun t => ⟨?_, ?_, ?_⟩⟩
  · rw [validateFormat, Text.trim_eq_empty.mpr blank]
    rfl
  · exact ⟨_, ⟨t, .empty⟩, Schema.decode_encode rfl, rfl⟩
  · exact ⟨_, t.ofValue_toMembers⟩
  · exact parseFirst_accepted t.timestampFormats

/-- A document with a blank format, a faulty one and a date. -/
theorem Tenant.refused_inert_stored :
    validateFormat "\u2003\t" = .error .blank
      ∧ validateFormat "[year]-[week]"
        = .error (.malformed "[year]-[week]" (.unknownName "week" 8))
      ∧ parseWith "[year]-[week]" "2024-18" = none
      ∧ ∃ s, Schema.decode (Text.utf8 ("\x7b\"org_id\":\"acme\",\"next_metric_id\":1,"
        ++ "\"timestamp_patterns\":[\"\u2003\\t\",\"[year]-[week]\",\"[year]-[month]-[day]\"]\x7d"))
        = .ok s
        ∧ s.toTenant.withoutRefused.timestampFormats = ["[year]-[month]-[day]"]
        ∧ s.toTenant.timestamp? "2024-05-01" = some ⟨1714521600000000000, 0⟩ := by
  have faulty : validateFormat "[year]-[week]"
      = .error (.malformed "[year]-[week]" (.unknownName "week" 8)) := by
    decide +kernel
  have decoded : Schema.decode (Text.utf8 ("\x7b\"org_id\":\"acme\",\"next_metric_id\":1,"
      ++ "\"timestamp_patterns\":[\"\u2003\\t\",\"[year]-[week]\",\"[year]-[month]-[day]\"]\x7d"))
      = .ok ⟨⟨"acme", [], ["\u2003\t", "[year]-[week]", "[year]-[month]-[day]"]⟩, ⟨1, []⟩⟩ := by
    decide +kernel
  obtain ⟨inert, blank, tenants⟩ := refused_inert
  have blanks : ∀ c ∈ "\u2003\t".toList, Text.isBlank c = true := List.all_eq_true.mp (by decide)
  refine ⟨blank _ blanks, faulty, inert _ _ faulty _, _, decoded, by decide +kernel, ?_⟩
  rw [← (tenants _).2.2]
  decide +kernel

end MetricRegistry.Catalog
