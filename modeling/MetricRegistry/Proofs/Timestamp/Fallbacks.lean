import MetricRegistry.Proofs.Outcome
import MetricRegistry.Proofs.Text.Numerals
import MetricRegistry.Proofs.Timestamp.Calendar
import MetricRegistry.Timestamp.Format

/-!
# What becomes of the parts of a timestamp

Every item of a pattern adds the part that it writes to what a text says and keeps the others
(`readItem_gains`), so after a whole pattern the parts are there that the pattern writes
(`fieldsOf?_gains`), within their bounds. `Fields.Bounded.isSome_time?` says when they make a time
of day and `Fields.instant?_of_not_counts` what instant comes of them; `Taken` puts this in terms of
the pattern, and `pattern_taken` says so of the texts that are read. `parts_dropped` shows parts
that were written and count for nothing.
-/

namespace MetricRegistry.Timestamp
open Ascii

/-! ## Parts -/

/-- A part of a timestamp other than its date. -/
inductive Part where
  | hour
  | hour12
  | period
  | minute
  | second
  | subsecond
  | offsetHour
  | offsetMinute
  | offsetSecond
  | count
  deriving DecidableEq

/-- The part that a component writes. -/
def Component.part? : Component → Option Part
  | .hour _ false => some .hour
  | .hour _ true => some .hour12
  | .period _ _ => some .period
  | .minute _ => some .minute
  | .second _ => some .second
  | .subsecond _ => some .subsecond
  | .offsetHour _ _ => some .offsetHour
  | .offsetMinute _ => some .offsetMinute
  | .offsetSecond _ => some .offsetSecond
  | .unixTimestamp _ _ => some .count
  | _ => none

/-- The part that an item writes. -/
def Item.part? : Item → Option Part
  | .literal _ => none
  | .component c => c.part?

/-- Whether a part is written by the items of a pattern. -/
def Writes (items : List Item) (p : Part) : Prop :=
  ∃ item ∈ items, item.part? = some p

instance (items : List Item) (p : Part) : Decidable (Writes items p) :=
  inferInstanceAs (Decidable (∃ item ∈ items, item.part? = some p))

namespace Fields

/-- Whether a text gave a part. -/
def has (f : Fields) : Part → Bool
  | .hour => f.hour.isSome
  | .hour12 => f.hour12.isSome
  | .period => f.afternoon.isSome
  | .minute => f.minute.isSome
  | .second => f.second.isSome
  | .subsecond => f.nanosecond.isSome
  | .offsetHour => f.offsetHour.isSome
  | .offsetMinute => f.offsetMinute.isSome
  | .offsetSecond => f.offsetSecond.isSome
  | .count => f.unixNanos.isSome

/-- The parts of a time of day lie within their bounds, where a second may have the number 60. -/
structure Bounded (f : Fields) : Prop where
  hour : ∀ h ∈ f.hour, h ≤ 23
  minute : ∀ m ∈ f.minute, m ≤ 59
  second : ∀ s ∈ f.second, s ≤ 60
  nanosecond : ∀ n ∈ f.nanosecond, n ≤ 999999999

end Fields

variable {c : Component} {item : Item} {items : List Item} {f f' : Fields} {s s' : List UInt8}

/-- What a text says under some item is what it said before it and the item's part. -/
structure Gains (part : Option Part) (f f' : Fields) : Prop where
  has : ∀ p, f'.has p = (f.has p || part == some p)
  bounded : f.Bounded → f'.Bounded

/-- A number with a bound is read within it. -/
lemma bounded?_le {padding : Padding} {width least most n : Nat}
    (read : bounded? padding width least most s = some (n, s')) : n ≤ most := by
  simp only [bounded?, bind, Option.bind_eq_some_iff] at read
  obtain ⟨⟨m, rest⟩, -, kept⟩ := read
  split at kept
  case isTrue inside =>
    cases kept
    simp only [Bool.and_eq_true, decide_eq_true_eq] at inside
    exact inside.2
  case isFalse => cases kept

/-- A fraction of a second is read within it. -/
lemma subsecond?_le {digits : Option Nat} {n : Nat} (read : subsecond? digits s = some (n, s')) :
    n ≤ 999999999 := by
  have nine (ds : List UInt8) : natOfDigits (ds.take 9) < 10 ^ 9 := by
    refine Nat.lt_of_lt_of_le (foldl_digit?_lt _ 0 (by decide)) ?_
    rw [Nat.zero_add]
    exact Nat.pow_le_pow_right (by decide) (List.length_take_le ..)
  cases digits <;>
  · simp only [subsecond?, Option.ite_none_right_eq_some, Option.some.injEq, Prod.mk.injEq] at read
    obtain ⟨-, rfl, -⟩ := read
    exact Nat.le_of_lt_succ (nine _)

/-- Each component adds its part and keeps the others. -/
lemma readComponent_gains (read : readComponent c f s = some (f', s')) : Gains c.part? f f' := by
  -- only the hour, minute, second and subsecond have bounds to keep
  cases c with
  | day | ordinal | month | weekday | offsetHour | offsetMinute | offsetSecond | unixTimestamp
  | period =>
    obtain ⟨⟨n, rest⟩, -, eq⟩ := Option.map_eq_some_iff.mp read
    cases eq
    refine ⟨fun p => ?_, fun old => { old with }⟩
    cases p <;> simp [Component.part?, Fields.has]
  | year padding form ofWeeks =>
    obtain ⟨⟨n, rest⟩, -, eq⟩ := Option.map_eq_some_iff.mp read
    cases form <;> cases ofWeeks <;>
    · cases eq
      refine ⟨fun p => ?_, fun old => { old with }⟩
      cases p <;> simp [Component.part?, Fields.has]
  | weekNumber padding form =>
    cases form <;>
    · obtain ⟨⟨n, rest⟩, -, eq⟩ := Option.map_eq_some_iff.mp read
      cases eq
      refine ⟨fun p => ?_, fun old => { old with }⟩
      cases p <;> simp [Component.part?, Fields.has]
  | hour padding twelve =>
    cases twelve with
    | false =>
      obtain ⟨⟨n, rest⟩, inside, eq⟩ := Option.map_eq_some_iff.mp read
      cases eq
      refine ⟨fun p => ?_, fun old => { old with hour := by simp [bounded?_le inside] }⟩
      cases p <;> simp [Component.part?, Fields.has]
    | true =>
      obtain ⟨⟨n, rest⟩, -, eq⟩ := Option.map_eq_some_iff.mp read
      cases eq
      refine ⟨fun p => ?_, fun old => { old with }⟩
      cases p <;> simp [Component.part?, Fields.has]
  | minute padding =>
    obtain ⟨⟨n, rest⟩, inside, eq⟩ := Option.map_eq_some_iff.mp read
    cases eq
    refine ⟨fun p => ?_, fun old => { old with minute := by simp [bounded?_le inside] }⟩
    cases p <;> simp [Component.part?, Fields.has]
  | second padding =>
    obtain ⟨⟨n, rest⟩, inside, eq⟩ := Option.map_eq_some_iff.mp read
    cases eq
    refine ⟨fun p => ?_, fun old => { old with second := by simp [bounded?_le inside] }⟩
    cases p <;> simp [Component.part?, Fields.has]
  | subsecond digits =>
    obtain ⟨⟨n, rest⟩, inside, eq⟩ := Option.map_eq_some_iff.mp read
    cases eq
    refine ⟨fun p => ?_, fun old => { old with nanosecond := by simp [subsecond?_le inside] }⟩
    cases p <;> simp [Component.part?, Fields.has]
  | ignore | finish =>
    obtain ⟨-, eq⟩ := Option.ite_none_right_eq_some.mp read
    cases eq
    exact ⟨fun p => by simp [Component.part?], id⟩

/-- An item adds its part and keeps the others. -/
lemma readItem_gains (read : readItem item f s = some (f', s')) : Gains item.part? f f' := by
  cases item with
  | literal bytes =>
    obtain ⟨rest, -, eq⟩ := Option.map_eq_some_iff.mp read
    cases eq
    exact ⟨fun p => by simp [Item.part?], id⟩
  | component c => exact readComponent_gains read

/-- What the items of a pattern give are the parts that they write. -/
lemma readItems_gains (read : readItems items f s = some (f', s')) :
    (∀ p, f'.has p = true ↔ f.has p = true ∨ Writes items p) ∧ (f.Bounded → f'.Bounded) := by
  induction items generalizing f s with
  | nil =>
    cases read
    exact ⟨fun p => by simp [Writes], id⟩
  | cons item items ih =>
    obtain ⟨⟨f₁, s₁⟩, first, rest⟩ := Option.bind_eq_some_iff.mp read
    obtain ⟨has, bounded⟩ := readItem_gains first
    obtain ⟨has', bounded'⟩ := ih rest
    refine ⟨fun p => ?_, bounded' ∘ bounded⟩
    simp [has', has, Writes, or_assoc]

/-- Fields are read for what the items write, within their bounds. -/
lemma fieldsOf?_gains (read : fieldsOf? items s = some f) :
    (∀ p, f.has p = true ↔ Writes items p) ∧ f.Bounded := by
  obtain ⟨⟨f', rest⟩, read, whole⟩ := Option.bind_eq_some_iff.mp read
  obtain ⟨-, eq⟩ := Option.ite_none_right_eq_some.mp whole
  cases eq
  obtain ⟨has, bounded⟩ := readItems_gains read
  refine ⟨fun p => ?_, bounded ⟨nofun, nofun, nofun, nofun⟩⟩
  rw [has, or_iff_right]
  cases p <;> exact Bool.false_ne_true

/-! ## Times -/

namespace Fields

/-- There is an hour if it was written, or if half of the day was with one of its hours. -/
lemma isSome_fullHour? : f.fullHour?.isSome = true
    ↔ f.has .hour = true ∨ f.has .hour12 = true ∧ f.has .period = true := by
  cases hour : f.hour <;> cases hour12 : f.hour12 <;> cases afternoon : f.afternoon <;>
    simp [fullHour?, has, hour, hour12, afternoon]

/-- An hour is within its day. -/
lemma Bounded.fullHour?_le (bounded : f.Bounded) {h : Nat} (full : f.fullHour? = some h) :
    h ≤ 23 := by
  unfold fullHour? at full
  split at full
  case h_1 hour =>
    cases full
    exact bounded.hour h hour
  case h_2 =>
    cases full
    split <;> omega
  case h_3 => cases full

/-- A time that is made of fields is valid. -/
lemma valid_of_time? {t : TimeOfDay} (read : f.time? = some t) : t.Valid := by
  obtain ⟨h, -, parts⟩ := Option.bind_eq_some_iff.mp read
  split at parts
  case h_5 => cases parts
  all_goals exact (TimeOfDay.ofParts?_eq_some.mp parts).1

/-- A time of day is read if it has an hour, no part is missing between two others, and the second
has a number below 60. -/
lemma Bounded.isSome_time? (bounded : f.Bounded) : f.time?.isSome = true
    ↔ (f.has .hour = true ∨ f.has .hour12 = true ∧ f.has .period = true)
      ∧ (f.has .second = true → f.has .minute = true)
      ∧ (f.has .subsecond = true → f.has .second = true) ∧ f.second ≠ some 60 := by
  rw [← isSome_fullHour?]
  cases full : f.fullHour? with
  | none => simp [time?, full]
  | some h =>
    have hour := bounded.fullHour?_le full
    have minute := bounded.minute
    have second := bounded.second
    have nanosecond := bounded.nanosecond
    cases m : f.minute <;> cases s : f.second <;> cases n : f.nanosecond <;>
      simp_all [time?, has, TimeOfDay.ofParts?]
    -- what is left are the times with a second
    · omega
    · omega

/-- There is an offset if its hours were written. -/
lemma isSome_offset? : f.offset?.isSome = f.has .offsetHour := by
  cases hour : f.offsetHour <;> simp [offset?, has, hour]

/-- A date that is made of fields is valid. -/
lemma valid_of_date? {d : Date} (read : f.date? = some d) : d.Valid := by
  unfold date? at read
  split at read
  case h_1 => exact Date.valid_of_ofOrdinal? read
  case h_2 => exact Date.valid_of_ofCalendar? read
  split at read
  case h_1 => exact Date.valid_of_ofWeek? read
  split at read
  case h_3 => cases read
  all_goals exact Date.valid_of_ofOrdinal? read

/-! ## Instants -/

/-- Whether a text gave a count since the epoch that lies within the calendar. -/
def Counts (f : Fields) : Prop :=
  ∃ n t, f.unixNanos = some n ∧ Instant.ofUnixNanos? n = some t

/-- Fields that count have a count. -/
lemma Counts.has (counts : f.Counts) : f.has .count = true := by
  obtain ⟨n, t, count, -⟩ := counts
  simp [Fields.has, count]

/-- Fields that count make an instant without an offset. -/
lemma Counts.instant? (counts : f.Counts) {t : Instant} (read : f.instant? = some t) :
    f.zoned? = some t ∧ t.offset = 0 := by
  obtain ⟨n, t', count, found⟩ := counts
  have utc : t'.offset = 0 := by
    simp only [Instant.ofUnixNanos?, Instant.ofUnixSeconds?, Option.map_eq_some_iff,
      Option.ite_none_right_eq_some] at found
    obtain ⟨_, ⟨-, eq⟩, rfl⟩ := found
    cases eq
    rfl
  have zoned : ∃ u, f.zoned? = some u ∧ u.offset = 0 := by
    simp only [zoned?, count, found]
    cases f.nanosecond <;> exact ⟨_, rfl, utc⟩
  obtain ⟨u, zoned, atUtc⟩ := zoned
  rw [Fields.instant?, zoned] at read
  cases read
  exact ⟨zoned, atUtc⟩

/-- What is made of a date: with a time, and with an offset besides unless a count was written. -/
lemma instant?_of_not_counts (uncounted : ¬ f.Counts) :
    f.instant? = f.date?.map fun date =>
      match f.time? with
      | some time => .ofLocal date time (if f.has .count then 0 else f.offset?.getD 0)
      | none => .ofLocal date .midnight 0 := by
  have zoned : f.zoned? = if f.has .count then none else f.date?.bind fun date =>
      f.time?.bind fun time => f.offset?.map (.ofLocal date time) := by
    cases count : f.unixNanos with
    | none =>
      simp only [zoned?, has, count]
      cases f.date? <;> cases f.time? <;> cases f.offset? <;> rfl
    | some n =>
      cases found : Instant.ofUnixNanos? n with
      | none => simp [zoned?, count, found, has]
      | some t => exact (uncounted ⟨n, t, count, found⟩).elim
  rw [instant?, zoned, utc?, midnight?]
  cases f.date? <;> cases f.time? <;> cases f.offset? <;> by_cases count : f.has .count = true <;>
    simp [count]

end Fields

/-! ## Patterns -/

/-- The items of a pattern write a time of day: an hour, and no part is missing between others. -/
def TellsTime (items : List Item) : Prop :=
  (Writes items .hour ∨ Writes items .hour12 ∧ Writes items .period)
    ∧ (Writes items .second → Writes items .minute)
    ∧ (Writes items .subsecond → Writes items .second)

instance (items : List Item) : Decidable (TellsTime items) :=
  inferInstanceAs (Decidable (_ ∧ _ ∧ _))

/-- How an instant comes of the parts that a text gave under the items of a pattern. -/
inductive Taken (items : List Item) (f : Fields) (t : Instant) : Prop
  /-- A count since the epoch, if it lies within the calendar, stands before all other parts. -/
  | counted (counts : f.Counts) (written : Writes items .count) (same : f.zoned? = some t)
      (utc : t.offset = 0)
  /-- A time of day is kept, and with it an offset. -/
  | zoned (uncounted : ¬ f.Counts) (tells : TellsTime items) (regular : f.second ≠ some 60)
      (written : Writes items .offsetHour) (alone : ¬ Writes items .count)
      (date : f.date? = some t.localDate) (time : f.time? = some t.localTime)
      (offset : f.offset? = some t.offset)
  /-- A time of day is kept, but what is written of an offset without its hours is not. -/
  | utc (uncounted : ¬ f.Counts) (tells : TellsTime items) (regular : f.second ≠ some 60)
      (unwritten : Writes items .offsetHour → Writes items .count)
      (date : f.date? = some t.localDate) (time : f.time? = some t.localTime)
      (utc : t.offset = 0)
  /-- The date alone is kept where there is no time of day or one that ends in a 60th second. -/
  | midnight (uncounted : ¬ f.Counts) (lacks : TellsTime items → f.second = some 60)
      (date : f.date? = some t.localDate) (midnight : t.localTime = .midnight) (utc : t.offset = 0)

/-- An instant that is made of fields was taken in one of the ways. -/
lemma taken_of_read (read : fieldsOf? items s = some f) {t : Instant}
    (made : f.instant? = some t) : Taken items f t := by
  obtain ⟨has, bounded⟩ := fieldsOf?_gains read
  have tells : f.time?.isSome = true ↔ TellsTime items ∧ f.second ≠ some 60 := by
    simp only [bounded.isSome_time?, has, TellsTime, and_assoc]
  -- a count of seconds goes before everything else
  by_cases counts : f.Counts
  · obtain ⟨same, utc⟩ := counts.instant? made
    exact .counted counts ((has _).mp counts.has) same utc
  rw [Fields.instant?_of_not_counts counts, Option.map_eq_some_iff] at made
  obtain ⟨date, found, made⟩ := made
  have valid := Fields.valid_of_date? found
  -- where no time can be told the date stands at midnight
  cases told : f.time? with
  | none =>
    rw [told] at made tells
    subst made
    refine .midnight counts ?_ ?_ (Instant.localTime_ofLocal TimeOfDay.valid_midnight) rfl
    · intro written
      by_contra regular
      cases tells.mpr ⟨written, regular⟩
    · rwa [Instant.localDate_ofLocal valid TimeOfDay.valid_midnight]
  | some time =>
    obtain ⟨written, regular⟩ := tells.mp (by rw [told]; rfl)
    have valid' := Fields.valid_of_time? told
    rw [told] at made
    have date : f.date? = some t.localDate := by
      rw [← made, Instant.localDate_ofLocal valid valid', found]
    have time : f.time? = some t.localTime := by
      rw [← made, Instant.localTime_ofLocal valid', told]
    have offset : t.offset = if f.has .count then 0 else f.offset?.getD 0 := by
      rw [← made]
      rfl
    -- an offset counts if its hours are written
    by_cases zoned : Writes items .offsetHour ∧ ¬ Writes items .count
    · obtain ⟨o, same⟩ : ∃ o, f.offset? = some o := by
        rw [← Option.isSome_iff_exists, Fields.isSome_offset?, has]
        exact zoned.1
      rw [if_neg (mt (has _).mp zoned.2), same] at offset
      exact .zoned counts written regular zoned.1 zoned.2 date time (offset ▸ same)
    · refine .utc counts written regular (by tauto) date time ?_
      by_cases count : f.has .count = true
      · rw [offset, if_pos count]
      · have none : f.offset? = none := by
          rw [← Option.not_isSome_iff_eq_none, Fields.isSome_offset?, has]
          exact fun hours => zoned ⟨hours, mt (has _).mpr count⟩
        rw [offset, if_neg count, none, Option.getD_none]

/-- What a pattern makes of a text: a text that is read gave the parts that the pattern writes, and
the instant comes of them in one of four ways. -/
theorem pattern_taken {pattern raw : String} {items : List Item} {t : Instant}
    (format : Format.ofText pattern = .ok (.pattern items))
    (read : parseWith pattern raw = some t) :
    ∃ f, fieldsOf? items (Text.utf8 (Text.trim raw)) = some f ∧ Taken items f t := by
  rw [parseWith, format] at read
  obtain ⟨f, parts, made⟩ := Option.bind_eq_some_iff.mp read
  exact ⟨f, parts, taken_of_read parts made⟩

/-- The items of `[year]-[month]-[day] [hour]:[minute]`. -/
def toTheMinute : List Item :=
  [.component (.year .zero .full false false), .literal [minus],
    .component (.month .zero .number true), .literal [minus], .component (.day .zero),
    .literal [space], .component (.hour .zero false), .literal [colon], .component (.minute .zero)]

/-- A time two hours ahead of UTC. -/
theorem pattern_taken_ahead :
    let items := toTheMinute ++ [.literal [space], .component (.offsetHour .zero false)]
    ∃ f, fieldsOf? items (Text.utf8 (Text.trim "2024-05-01 10:30 +02")) = some f
      ∧ Taken items f ⟨1714552200000000000, 7200⟩ := by
  intro items
  have format : Format.ofText "[year]-[month]-[day] [hour]:[minute] [offset_hour]"
      = .ok (.pattern items) := by
    rw [← Except.toOption_eq_some]
    decide +kernel
  exact pattern_taken format (by decide +kernel)

/-- The last minute of a day with a 60th second is taken for the start of that day, and a time with
the minutes of an offset for one at UTC. -/
theorem parts_dropped :
    (∃ items t, Format.ofText "[year]-[month]-[day] [hour]:[minute]:[second]"
          = .ok (.pattern items)
        ∧ Writes items .hour ∧ Writes items .minute ∧ Writes items .second
        ∧ parseWith "[year]-[month]-[day] [hour]:[minute]:[second]" "2016-12-31 23:59:60" = some t
        ∧ t.localTime = .midnight)
      ∧ ∃ items t, Format.ofText "[year]-[month]-[day] [hour]:[minute] [offset_minute]"
          = .ok (.pattern items)
        ∧ Writes items .offsetMinute
        ∧ parseWith "[year]-[month]-[day] [hour]:[minute] [offset_minute]" "2024-05-01 10:30 45"
          = some t
        ∧ t.localTime = ⟨10, 30, 0, 0⟩ ∧ t.offset = 0 := by
  refine ⟨⟨toTheMinute ++ [.literal [colon], .component (.second .zero)],
    ⟨1483142400000000000, 0⟩, ?_, ?_⟩, toTheMinute ++ [.literal [space],
    .component (.offsetMinute .zero)], ⟨1714559400000000000, 0⟩, ?_, ?_⟩
  · rw [← Except.toOption_eq_some]
    decide +kernel
  · decide +kernel
  · rw [← Except.toOption_eq_some]
    decide +kernel
  · decide +kernel

end MetricRegistry.Timestamp
