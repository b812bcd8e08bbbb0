import Mathlib.Data.List.Forall2
import MetricRegistry.Command.Report
import MetricRegistry.Proofs.Text.Numerals

/-!
# What responses look like

`Renders` says which text shows a response: lines for people to read (`Printed`), or JSON with each
member and each item on a line of its own (`Written`). Both are said apart from the way in which the
texts are made. `renders_iff` says that the text in which a response is shown is the one that
renders it; for JSON it goes through the bytes, of which each part pins its own (`Pins`).
-/

namespace MetricRegistry.Command

open Ascii Catalog Json

/-- Texts that show some things stand one after the other. -/
inductive InTurn {α : Type} (shows : α → String → Prop) : List α → String → Prop where
  | nil :
    InTurn shows [] ""
  | cons {x xs text rest} :
    shows x text →
    InTurn shows xs rest →
    InTurn shows (x :: xs) (text ++ rest)

/-! ## Lines -/

/-- Texts with a comma and a space between each and the next. -/
inductive Joined : List String → String → Prop where
  | one {text} :
    Joined [text] text
  | more {text texts rest} :
    Joined texts rest →
    Joined (text :: texts) (text ++ ", " ++ rest)

/-- The values of a list, or a dash. -/
inductive Listed : List String → String → Prop where
  | none :
    Listed [] "-"
  | some {texts list} :
    Joined texts list →
    Listed texts list

/-- The aliases that follow a name, if there are any. -/
inductive Aliased : List String → String → Prop where
  | none :
    Aliased [] ""
  | some {aliases list} :
    Joined aliases list →
    Aliased aliases (" (aliases: " ++ list ++ ")")

/-- The line of a field. -/
inductive FieldPrinted (f : Field) : String → Prop where
  | intro {aliases} :
    Aliased f.naming.aliases aliases →
    FieldPrinted f ("      [" ++ toString f.id.toNat ++ "] " ++ f.naming.name ++ ": " ++ f.type.wire
      ++ aliases ++ "\n")

/-- The lines of a metric: its own and those of its fields. -/
inductive MetricPrinted (m : Metric) : String → Prop where
  | intro {aliases fields} :
    Aliased m.naming.aliases aliases →
    InTurn FieldPrinted m.fields.entries fields →
    MetricPrinted m ("  [" ++ toString m.id.toNat ++ "] " ++ m.naming.name ++ aliases ++ "\n"
      ++ fields)

/-- The lines of a response. -/
inductive Printed : Response → String → Prop where
  | committed {org version} :
    Printed (.committed org version true)
      (org ++ ": committed version " ++ toString version ++ "\n")
  | unchanged {org version} :
    Printed (.committed org version false)
      (org ++ ": unchanged at version " ++ toString version ++ "\n")
  | metrics {org version ms text} :
    InTurn MetricPrinted ms text →
    Printed (.metrics org version ms) (org ++ " (version " ++ toString version ++ "): "
      ++ toString ms.length ++ " metric(s)\n" ++ text)
  | metric {org version m text} :
    MetricPrinted m text →
    Printed (.metric org version m) (org ++ " (version " ++ toString version ++ ")\n" ++ text)
  | tenant {t : Tenant} {keys formats} :
    Listed t.metricKeys keys →
    Listed t.timestampFormats formats →
    Printed (.tenant t) (t.orgId ++ "\n  metric keys: " ++ keys ++ "\n  timestamp formats: "
      ++ formats ++ "\n")

/-! ## JSON -/

/-- The characters of a string that have escapes of their own. -/
def shortEscapes : List (Char × String) :=
  [('"', "\\\""), ('\\', "\\\\"), ('\x08', "\\b"), ('\x0c', "\\f"), ('\n', "\\n"), ('\r', "\\r"),
    ('\t', "\\t")]

/-- A character of a string: escaped if it has an escape of its own or is a control. -/
inductive QuotedChar : Char → String → Prop where
  | short {c text} :
    (c, text) ∈ shortEscapes →
    QuotedChar c text
  | control {c} :
    c ∉ shortEscapes.map Prod.fst →
    c.toNat < 0x20 →
    QuotedChar c (String.ofList
      ['\\', 'u', '0', '0', Nat.digitChar (c.toNat / 16), Nat.digitChar (c.toNat % 16)])
  | plain {c} :
    c ∉ shortEscapes.map Prod.fst →
    0x20 ≤ c.toNat →
    QuotedChar c (String.singleton c)

/-- A string between its quotes. -/
inductive Quoted (s : String) : String → Prop where
  | intro {text} :
    InTurn QuotedChar s.toList text →
    Quoted s ("\"" ++ text ++ "\"")

/-- A new line that is indented by two blanks a level. -/
def newLine (level : ℕ) : String :=
  "\n" ++ String.ofList (List.replicate (2 * level) ' ')

/-- Texts that show some things stand on lines of their own, with a comma between each and the
next. -/
inductive OnLines {α : Type} (level : ℕ) (shows : α → String → Prop) : List α → String → Prop where
  | one {x text} :
    shows x text →
    OnLines level shows [x] (newLine level ++ text)
  | more {x xs text rest} :
    shows x text →
    OnLines level shows xs rest →
    OnLines level shows (x :: xs) (newLine level ++ text ++ "," ++ rest)

/-- An array. -/
inductive ArrayWritten {α : Type} (level : ℕ) (shows : α → String → Prop) :
    List α → String → Prop where
  | empty :
    ArrayWritten level shows [] "[]"
  | filled {xs text} :
    OnLines (level + 1) shows xs text →
    ArrayWritten level shows xs ("[" ++ text ++ newLine level ++ "]")

/-- A member of an object: a name, and what its value may be. -/
inductive MemberWritten : String × (String → Prop) → String → Prop where
  | intro {name shows quoted text} :
    Quoted name quoted →
    shows text →
    MemberWritten (name, shows) (quoted ++ ": " ++ text)

/-- An object with members. -/
inductive ObjectWritten (level : ℕ) (members : List (String × (String → Prop))) :
    String → Prop where
  | intro {text} :
    OnLines (level + 1) MemberWritten members text →
    ObjectWritten level members ("\x7b" ++ text ++ newLine level ++ "\x7d")

/-- The object of a field. -/
def FieldWritten (level : ℕ) (f : Field) : String → Prop :=
  ObjectWritten level [("id", (· = toString f.id.toNat)),
    ("user_field_name", Quoted f.naming.name), ("type", Quoted f.type.wire),
    ("aliases", ArrayWritten (level + 1) Quoted f.naming.aliases)]

/-- The object of a metric. -/
def MetricWritten (level : ℕ) (m : Metric) : String → Prop :=
  ObjectWritten level [("id", (· = toString m.id.toNat)),
    ("user_visible_name", Quoted m.naming.name),
    ("aliases", ArrayWritten (level + 1) Quoted m.naming.aliases),
    ("next_field_id", (· = toString m.fields.next.toNat)),
    ("fields", ArrayWritten (level + 1) (FieldWritten (level + 2)) m.fields.entries)]

/-- The object of a response. -/
def Written : Response → String → Prop
  | .committed org version changed =>
    ObjectWritten 0 [("result", Quoted "committed"), ("org_id", Quoted org),
      ("version", (· = toString version)), ("changed", (· = toString changed))]
  | .metrics org version ms =>
    ObjectWritten 0 [("result", Quoted "metrics"), ("org_id", Quoted org),
      ("version", (· = toString version)), ("metrics", ArrayWritten 1 (MetricWritten 2) ms)]
  | .metric org version m =>
    ObjectWritten 0 [("result", Quoted "metric"), ("org_id", Quoted org),
      ("version", (· = toString version)), ("metric", MetricWritten 1 m)]
  | .tenant t =>
    ObjectWritten 0 [("result", Quoted "tenant"), ("org_id", Quoted t.orgId),
      ("metric_key_aliases", ArrayWritten 1 Quoted t.metricKeys),
      ("timestamp_patterns", ArrayWritten 1 Quoted t.timestampFormats)]

/-- A text shows a response in a style. -/
inductive Renders : Style → Response → String → Prop where
  | text {r text} :
    Printed r text →
    Renders .text r text
  | json {r text} :
    Written r text →
    Renders .json r (text ++ "\n")

/-! ## Lines as they are made -/

section Lines

variable {text : String}

/-- Texts that are known one by one are known one after the other. -/
lemma inTurn_iff {α : Type} {shows : α → String → Prop} {show' : α → String}
    (each : ∀ x text, shows x text ↔ text = show' x) {xs : List α} :
    InTurn shows xs text ↔ text = String.join (xs.map show') := by
  induction xs generalizing text with
  | nil =>
    constructor
    · rintro ⟨⟩
      rfl
    · rintro rfl
      exact .nil
  | cons x xs ih =>
    rw [List.map_cons, String.join_cons]
    constructor
    · rintro (_ | ⟨first, rest⟩)
      rw [(each _ _).mp first, ih.mp rest]
    · rintro rfl
      exact .cons ((each _ _).mpr rfl) (ih.mpr rfl)

/-- Joined texts have commas between them. -/
lemma joined_iff {texts : List String} :
    Joined texts text ↔ texts ≠ [] ∧ text = ", ".intercalate texts := by
  induction texts generalizing text with
  | nil =>
    constructor
    · rintro ⟨⟩
    · rintro ⟨ne, -⟩
      exact (ne rfl).elim
  | cons first texts ih =>
    constructor
    · intro joined
      cases joined with
      | one => exact ⟨List.cons_ne_nil _ _, String.intercalate_singleton.symm⟩
      | more rest =>
        obtain ⟨ne, rfl⟩ := ih.mp rest
        exact ⟨List.cons_ne_nil _ _, (String.intercalate_cons_of_ne_nil ne).symm⟩
    · rintro ⟨-, rfl⟩
      by_cases ne : texts = []
      · subst ne
        rw [String.intercalate_singleton]
        exact .one
      · rw [String.intercalate_cons_of_ne_nil ne]
        exact .more (ih.mpr ⟨ne, rfl⟩)

/-- A list is shown as it is made. -/
lemma listed_iff {texts : List String} : Listed texts text ↔ text = listShown texts := by
  cases texts with
  | nil =>
    constructor
    · rintro (_ | joined)
      · rfl
      · cases joined
    · rintro rfl
      exact .none
  | cons first texts =>
    constructor
    · rintro (_ | joined)
      exact (joined_iff.mp joined).2
    · intro eq
      exact .some (joined_iff.mpr ⟨List.cons_ne_nil _ _, eq⟩)

/-- Aliases are shown as they are made. -/
lemma aliased_iff {aliases : List String} : Aliased aliases text ↔ text = aliasesShown aliases := by
  cases aliases with
  | nil =>
    constructor
    · rintro (_ | joined)
      · rfl
      · cases joined
    · rintro rfl
      exact .none
  | cons first aliases =>
    have ne := List.cons_ne_nil first aliases
    constructor
    · rintro (_ | joined)
      rw [(joined_iff.mp joined).2]
      rfl
    · rintro rfl
      exact .some (joined_iff.mpr ⟨ne, rfl⟩)

/-- A line ends before the lines that follow it. -/
lemma unlines_cons (line : String) (lines : List String) :
    unlines (line :: lines) = line ++ "\n" ++ unlines lines := by
  rw [unlines, List.map_cons, String.join_cons]
  rfl

/-- No lines are no text. -/
lemma unlines_nil : unlines [] = "" :=
  rfl

/-- Lines that are made in turn are one text after the other. -/
lemma unlines_flatMap {α : Type} (xs : List α) (linesOf : α → List String) :
    unlines (xs.flatMap linesOf) = String.join (xs.map fun x => unlines (linesOf x)) := by
  induction xs with
  | nil => rfl
  | cons x xs ih =>
    rw [List.flatMap_cons, List.map_cons, String.join_cons, ← ih, unlines, unlines, unlines,
      List.map_append, String.join_append]

/-- The line of a field is the one that is made. -/
lemma fieldPrinted_iff {f : Field} : FieldPrinted f text ↔ text = fieldLine f ++ "\n" := by
  constructor
  · rintro ⟨aliased⟩
    rw [aliased_iff.mp aliased]
    rfl
  · rintro rfl
    exact .intro (aliased_iff.mpr rfl)

/-- The lines of a metric are those that are made. -/
lemma metricPrinted_iff {m : Metric} : MetricPrinted m text ↔ text = unlines (metricLines m) := by
  have fields {text : String} : InTurn FieldPrinted m.fields.entries text
      ↔ text = unlines (m.fields.entries.map fieldLine) := by
    rw [@inTurn_iff _ _ FieldPrinted _ fun _ _ => fieldPrinted_iff, unlines, List.map_map]
    rfl
  have lines : unlines (metricLines m) = "  [" ++ toString m.id.toNat ++ "] " ++ m.naming.name
      ++ aliasesShown m.naming.aliases ++ "\n" ++ unlines (m.fields.entries.map fieldLine) :=
    unlines_cons _ _
  rw [lines]
  constructor
  · rintro ⟨aliased, lined⟩
    rw [aliased_iff.mp aliased, fields.mp lined]
  · rintro rfl
    exact .intro (aliased_iff.mpr rfl) (fields.mpr rfl)

/-- The lines of a response are those that are made. -/
lemma printed_iff {r : Response} : Printed r text ↔ text = unlines (responseLines r) := by
  cases r with
  | committed org version changed =>
    cases changed with
    | true =>
      constructor
      · rintro ⟨⟩
        rfl
      · rintro rfl
        exact .committed
    | false =>
      constructor
      · rintro ⟨⟩
        rfl
      · rintro rfl
        exact .unchanged
  | metrics org version ms =>
    have metrics {text : String} : InTurn MetricPrinted ms text
        ↔ text = unlines (ms.flatMap metricLines) := by
      rw [@inTurn_iff _ _ MetricPrinted _ fun _ _ => metricPrinted_iff, unlines_flatMap]
    have lines : unlines (responseLines (.metrics org version ms)) = org ++ " (version "
        ++ toString version ++ "): " ++ toString ms.length ++ " metric(s)\n"
        ++ unlines (ms.flatMap metricLines) := by
      have ends : " metric(s)\n" = " metric(s)" ++ "\n" := rfl
      rw [responseLines, unlines_cons, ends, ← String.append_assoc]
      rfl
    rw [lines]
    constructor
    · rintro (_ | _ | shown)
      rw [metrics.mp shown]
    · rintro rfl
      exact .metrics (metrics.mpr rfl)
  | metric org version m =>
    have lines : unlines (responseLines (.metric org version m)) = org ++ " (version "
        ++ toString version ++ ")\n" ++ unlines (metricLines m) := by
      have ends : ")\n" = ")" ++ "\n" := rfl
      rw [responseLines, unlines_cons, ends, ← String.append_assoc]
      rfl
    rw [lines]
    constructor
    · rintro (_ | _ | _ | shown)
      rw [metricPrinted_iff.mp shown]
    · rintro rfl
      exact .metric (metricPrinted_iff.mpr rfl)
  | tenant t =>
    have lines : unlines (responseLines (.tenant t)) = t.orgId ++ "\n  metric keys: "
        ++ listShown t.metricKeys ++ "\n  timestamp formats: " ++ listShown t.timestampFormats
        ++ "\n" := by
      have keys : "\n  metric keys: " = "\n" ++ "  metric keys: " := rfl
      have formats : "\n  timestamp formats: " = "\n" ++ "  timestamp formats: " := rfl
      simp only [keys, formats, responseLines, unlines_cons, unlines_nil, String.append_empty,
        String.append_assoc]
      rfl
    rw [lines]
    constructor
    · rintro (_ | _ | _ | _ | ⟨keys, formats⟩)
      rw [listed_iff.mp keys, listed_iff.mp formats]
    · rintro rfl
      exact .tenant (listed_iff.mpr rfl) (listed_iff.mpr rfl)

end Lines

/-! ## JSON as it is made -/

/-- There is one text that shows something, with these bytes. -/
def Pins (shows : String → Prop) (bytes : List UInt8) : Prop :=
  ∃ text, Text.utf8 text = bytes ∧ ∀ other, shows other ↔ other = text

section Json

variable {α : Type} {level : ℕ}

/-- The bytes of two texts are those of the first and those of the second. -/
lemma utf8_append (s t : String) : Text.utf8 (s ++ t) = Text.utf8 s ++ Text.utf8 t := by
  simp [Text.utf8]

/-- Texts that are pinned one by one are pinned one after the other. -/
lemma pins_inTurn {shows : α → String → Prop} {bytes : α → List UInt8}
    (pinned : ∀ x, Pins (shows x) (bytes x)) (xs : List α) :
    Pins (InTurn shows xs) (xs.flatMap bytes) := by
  induction xs with
  | nil =>
    refine ⟨"", rfl, fun other => ⟨?_, ?_⟩⟩
    · rintro ⟨⟩
      rfl
    · rintro rfl
      exact .nil
  | cons x xs ih =>
    obtain ⟨text, spelled, only⟩ := pinned x
    obtain ⟨rest, spelled', only'⟩ := ih
    refine ⟨text ++ rest, by rw [utf8_append, spelled, spelled', List.flatMap_cons],
      fun other => ⟨?_, ?_⟩⟩
    · rintro (_ | ⟨first, rest⟩)
      rw [(only _).mp first, (only' _).mp rest]
    · rintro rfl
      exact .cons ((only _).mpr rfl) ((only' _).mpr rfl)

/-- A character is escaped in one way. -/
lemma QuotedChar.unique {c : Char} {text text' : String} (quoted : QuotedChar c text)
    (quoted' : QuotedChar c text') : text = text' := by
  have distinct : ∀ e ∈ shortEscapes, ∀ e' ∈ shortEscapes, e.1 = e'.1 → e.2 = e'.2 := by decide
  have known {text : String} (mem : (c, text) ∈ shortEscapes) : c ∈ shortEscapes.map Prod.fst :=
    List.mem_map.mpr ⟨_, mem, rfl⟩
  cases quoted with
  | short mem =>
    cases quoted' with
    | short mem' => exact distinct _ mem _ mem' rfl
    | control other => exact (other (known mem)).elim
    | plain other => exact (other (known mem)).elim
  | control other low =>
    cases quoted' with
    | short mem => exact (other (known mem)).elim
    | control => rfl
    | plain _ high => exact (Nat.not_lt.mpr high low).elim
  | plain other high =>
    cases quoted' with
    | short mem => exact (other (known mem)).elim
    | control _ low => exact (Nat.not_lt.mpr high low).elim
    | plain => rfl

/-- The digits of an escape are those of hexadecimal numbers. -/
lemma lowerHexDigit_eq : ∀ n < 16, (Nat.digitChar n).toNat.toUInt8 = lowerHexDigit n := by
  decide

/-- A character of a string is escaped as it is made. -/
lemma pins_quotedChar (c : Char) : Pins (QuotedChar c) (quotedChar c) := by
  obtain ⟨text, spelled, quoted⟩ : ∃ text, Text.utf8 text = quotedChar c ∧ QuotedChar c text := by
    by_cases known : c ∈ shortEscapes.map Prod.fst
    · have each : ∀ e ∈ shortEscapes, Text.utf8 e.2 = quotedChar e.1 := by decide
      obtain ⟨e, mem, rfl⟩ := List.mem_map.mp known
      exact ⟨e.2, each e mem, .short mem⟩
    · have other : quotedChar c = if c.toNat < 0x20 then
          [backslash, lowerU, zero, zero, lowerHexDigit (c.toNat / 16),
            lowerHexDigit (c.toNat % 16)]
        else String.utf8EncodeChar c := by
        unfold quotedChar
        split
        case h_8 => rfl
        all_goals exact (known (by decide)).elim
      -- what has no escape of its own is a control or stands for itself
      rw [other]
      split
      case isTrue low =>
        refine ⟨_, ?_, .control known low⟩
        have high : c.toNat / 16 < 16 := by omega
        have rest : c.toNat % 16 < 16 := Nat.mod_lt _ (by decide)
        have ascii : ∀ n < 16, (Nat.digitChar n).toNat < 128 := by decide
        rw [Text.utf8, String.toList_ofList, Text.flatMap_utf8EncodeChar]
        · simp only [List.map_cons, List.map_nil, lowerHexDigit_eq _ high, lowerHexDigit_eq _ rest]
          rfl
        · simp only [List.forall_mem_cons]
          exact ⟨by decide, by decide, by decide, by decide, ascii _ high, ascii _ rest,
            List.forall_mem_nil _⟩
      case isFalse high =>
        exact ⟨_, by simp [Text.utf8], .plain known (Nat.le_of_not_lt high)⟩
  exact ⟨text, spelled, fun other =>
    ⟨fun quoted' => quoted'.unique quoted, fun eq => eq ▸ quoted⟩⟩

/-- A string is written as it is made. -/
lemma pins_quoted (s : String) : Pins (Quoted s) (quoted s) := by
  obtain ⟨text, spelled, only⟩ := pins_inTurn pins_quotedChar s.toList
  refine ⟨"\"" ++ text ++ "\"", ?_, fun other => ⟨?_, ?_⟩⟩
  · rw [utf8_append, utf8_append, spelled]
    rfl
  · rintro ⟨chars⟩
    rw [(only _).mp chars]
  · rintro rfl
    exact .intro ((only _).mpr rfl)

/-- A number is written as it is made. -/
lemma pins_nat (n : ℕ) : Pins (· = toString n) ((Value.nat n).pretty level) := by
  refine ⟨toString n, ?_, fun other => Iff.rfl⟩
  have digits : ∀ c ∈ Nat.toDigits 10 n, c.toNat < 128 := fun c mem =>
    Nat.lt_of_le_of_lt (Ascii.toNat_of_isDigit
      (Nat.isDigit_of_mem_toDigits (by decide) (by decide) mem)).2 (by decide)
  rw [Nat.toString_eq_ofList_toDigits, Text.utf8, String.toList_ofList,
    Text.flatMap_utf8EncodeChar digits]
  rfl

/-- A truth value is written as it is made. -/
lemma pins_bool (b : Bool) : Pins (· = toString b) ((Value.bool b).pretty level) := by
  refine ⟨toString b, ?_, fun other => Iff.rfl⟩
  cases b <;> rfl

/-- A new line is indented as it is made. -/
lemma utf8_newLine (level : ℕ) : Text.utf8 (newLine level) = indent level := by
  have blanks : ∀ c ∈ List.replicate (2 * level) ' ', c.toNat < 128 := by
    intro c mem
    obtain rfl := List.eq_of_mem_replicate mem
    decide
  have spelled : Text.utf8 (String.ofList (List.replicate (2 * level) ' '))
      = List.replicate (2 * level) space := by
    rw [Text.utf8, String.toList_ofList, Text.flatMap_utf8EncodeChar blanks, List.map_replicate]
    rfl
  rw [newLine, utf8_append, spelled]
  rfl

/-- Parts stand on their lines as they are made. -/
lemma pins_onLines {shows : α → String → Prop} {xs : List α} {parts : List (List UInt8)}
    (pinned : List.Forall₂ (fun x bytes => Pins (shows x) bytes) xs parts) (ne : xs ≠ []) :
    Pins (OnLines level shows xs) (indent level ++ separated (comma :: indent level) parts) := by
  induction pinned with
  | nil => exact (ne rfl).elim
  | @cons x bytes xs parts first pinned ih =>
    obtain ⟨text, spelled, only⟩ := first
    cases pinned with
    | nil =>
      refine ⟨newLine level ++ text, ?_, fun other => ⟨?_, ?_⟩⟩
      · rw [utf8_append, utf8_newLine, spelled]
        rfl
      · rintro (first | ⟨_, rest⟩)
        · rw [(only _).mp first]
        · cases rest
      · rintro rfl
        exact .one ((only _).mpr rfl)
    | cons second pinned =>
      obtain ⟨rest, spelled', only'⟩ := ih (List.cons_ne_nil _ _)
      refine ⟨newLine level ++ text ++ "," ++ rest, ?_, fun other => ⟨?_, ?_⟩⟩
      · rw [utf8_append, utf8_append, utf8_append, utf8_newLine, spelled, spelled']
        simp [separated, Text.utf8]
        rfl
      · rintro (_ | ⟨first, rest⟩)
        rw [(only _).mp first, (only' _).mp rest]
      · rintro rfl
        exact .more ((only _).mpr rfl) ((only' _).mpr rfl)

/-- The items of an array are written one by one. -/
lemma prettyItems_eq (level : ℕ) (items : List Value) :
    prettyItems level items = items.map (Value.pretty level) := by
  induction items with
  | nil => rfl
  | cons item items ih => rw [prettyItems, ih, List.map_cons]

/-- The members of an object are written one by one. -/
lemma prettyMembers_eq (level : ℕ) (members : List (String × Value)) :
    prettyMembers level members
      = members.map fun member => quoted member.1 ++ [colon, space] ++ member.2.pretty level := by
  induction members with
  | nil => rfl
  | cons member members ih => rw [prettyMembers, ih, List.map_cons]

/-- A container with parts has them on lines of their own. -/
lemma block_of_ne_nil {opening closing : UInt8} {parts : List (List UInt8)} (ne : parts ≠ []) :
    block opening closing level parts
      = opening :: (indent (level + 1) ++ separated (comma :: indent (level + 1)) parts)
        ++ indent level ++ [closing] := by
  rw [block, if_neg (by simpa using ne)]
  simp

/-- An array is written as it is made. -/
lemma pins_array {shows : α → String → Prop} {value : α → Value}
    (pinned : ∀ x, Pins (shows x) ((value x).pretty (level + 1))) (xs : List α) :
    Pins (ArrayWritten level shows xs) ((Value.array (xs.map value)).pretty level) := by
  rw [Value.pretty, prettyItems_eq, List.map_map]
  cases xs with
  | nil =>
    refine ⟨"[]", rfl, fun other => ⟨?_, ?_⟩⟩
    · rintro (_ | lines)
      · rfl
      · cases lines
    · rintro rfl
      exact .empty
  | cons x xs =>
    have each : List.Forall₂ (fun x bytes => Pins (shows x) bytes) (x :: xs)
        ((x :: xs).map (Value.pretty (level + 1) ∘ value)) :=
      List.forall₂_map_right_iff.mpr (List.forall₂_same.mpr fun x _ => pinned x)
    obtain ⟨text, spelled, only⟩ := @pins_onLines _ (level + 1) _ _ _ each (List.cons_ne_nil x xs)
    refine ⟨"[" ++ text ++ newLine level ++ "]", ?_, fun other => ⟨?_, ?_⟩⟩
    · rw [utf8_append, utf8_append, utf8_append, spelled, utf8_newLine,
        block_of_ne_nil (by simp)]
      rfl
    · rintro (_ | lines)
      rw [(only _).mp lines]
    · rintro rfl
      exact .filled ((only _).mpr rfl)

/-- An object is written as it is made. -/
lemma pins_object {members : List (String × (String → Prop))} {values : List (String × Value)}
    (pinned : List.Forall₂ (fun member value => member.1 = value.1
      ∧ Pins member.2 (value.2.pretty (level + 1))) members values) (ne : members ≠ []) :
    Pins (ObjectWritten level members) ((Value.object values).pretty level) := by
  rw [Value.pretty, prettyMembers_eq]
  have each : List.Forall₂ (fun member bytes => Pins (MemberWritten member) bytes) members
      (values.map fun value => quoted value.1 ++ [colon, space] ++ value.2.pretty (level + 1)) := by
    rw [List.forall₂_map_right_iff]
    refine pinned.imp ?_
    rintro ⟨name, shows⟩ ⟨_, value⟩ ⟨rfl, text, spelled, only⟩
    obtain ⟨label, spelled', only'⟩ := pins_quoted name
    refine ⟨label ++ ": " ++ text, ?_, fun other => ⟨?_, ?_⟩⟩
    · rw [utf8_append, utf8_append, spelled, spelled']
      rfl
    · rintro ⟨named, valued⟩
      rw [(only _).mp valued, (only' _).mp named]
    · rintro rfl
      exact .intro ((only' _).mpr rfl) ((only _).mpr rfl)
  have ne' : values ≠ [] := by
    rintro rfl
    cases pinned
    exact ne rfl
  obtain ⟨text, spelled, only⟩ := pins_onLines each ne
  refine ⟨"\x7b" ++ text ++ newLine level ++ "\x7d", ?_, fun other => ⟨?_, ?_⟩⟩
  · rw [utf8_append, utf8_append, utf8_append, spelled, utf8_newLine,
      block_of_ne_nil (by simpa using ne')]
    rfl
  · rintro ⟨lines⟩
    rw [(only _).mp lines]
  · rintro rfl
    exact .intro ((only _).mpr rfl)

/-- A list of texts is written as it is made. -/
lemma pins_texts (texts : List String) :
    Pins (ArrayWritten level Quoted texts) ((Value.texts texts).pretty level) :=
  pins_array pins_quoted texts

/-- A field is written as it is made. -/
lemma pins_field (f : Field) : Pins (FieldWritten level f) (f.toValue.pretty level) := by
  refine pins_object ?_ (List.cons_ne_nil _ _)
  exact .cons ⟨rfl, pins_nat _⟩ (.cons ⟨rfl, pins_quoted _⟩ (.cons ⟨rfl, pins_quoted _⟩
    (.cons ⟨rfl, pins_texts _⟩ .nil)))

/-- A metric is written as it is made. -/
lemma pins_metric (m : Metric) : Pins (MetricWritten level m) (m.toValue.pretty level) := by
  refine pins_object ?_ (List.cons_ne_nil _ _)
  exact .cons ⟨rfl, pins_nat _⟩ (.cons ⟨rfl, pins_quoted _⟩ (.cons ⟨rfl, pins_texts _⟩
    (.cons ⟨rfl, pins_nat _⟩ (.cons ⟨rfl, pins_array pins_field _⟩ .nil))))

/-- A response is written as it is made. -/
lemma pins_response (r : Response) : Pins (Written r) (r.toValue.pretty 0) := by
  cases r with
  | committed org version changed =>
    refine pins_object ?_ (List.cons_ne_nil _ _)
    exact .cons ⟨rfl, pins_quoted _⟩ (.cons ⟨rfl, pins_quoted _⟩ (.cons ⟨rfl, pins_nat _⟩
      (.cons ⟨rfl, pins_bool _⟩ .nil)))
  | metrics org version ms =>
    refine pins_object ?_ (List.cons_ne_nil _ _)
    exact .cons ⟨rfl, pins_quoted _⟩ (.cons ⟨rfl, pins_quoted _⟩ (.cons ⟨rfl, pins_nat _⟩
      (.cons ⟨rfl, pins_array pins_metric _⟩ .nil)))
  | metric org version m =>
    refine pins_object ?_ (List.cons_ne_nil _ _)
    exact .cons ⟨rfl, pins_quoted _⟩ (.cons ⟨rfl, pins_quoted _⟩ (.cons ⟨rfl, pins_nat _⟩
      (.cons ⟨rfl, pins_metric _⟩ .nil)))
  | tenant t =>
    refine pins_object ?_ (List.cons_ne_nil _ _)
    exact .cons ⟨rfl, pins_quoted _⟩ (.cons ⟨rfl, pins_quoted _⟩ (.cons ⟨rfl, pins_texts _⟩
      (.cons ⟨rfl, pins_texts _⟩ .nil)))

end Json

/-- A response is shown in the text that renders it. -/
lemma renders_iff {style : Style} {r : Response} {text : String} :
    Renders style r text ↔ text = shown style r := by
  cases style with
  | text =>
    constructor
    · rintro ⟨printed⟩
      exact printed_iff.mp printed
    · intro eq
      exact .text (printed_iff.mpr eq)
  | json =>
    obtain ⟨json, spelled, only⟩ := pins_response r
    have eq : shown .json r = json ++ "\n" := by
      rw [shown, ← spelled, Text.ofUtf8?_utf8]
      simp [unlines]
    rw [eq]
    constructor
    · rintro (_ | ⟨written⟩)
      rw [(only _).mp written]
    · rintro rfl
      exact .json ((only _).mpr rfl)

end MetricRegistry.Command
