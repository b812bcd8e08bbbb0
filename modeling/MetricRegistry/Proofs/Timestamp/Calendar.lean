import Mathlib.Tactic.Common
import Mathlib.Tactic.IntervalCases
import MetricRegistry.Timestamp.Fields

/-!
# Dates and clocks

`Date.ofDay` finds for every day its year, though it starts from a guess, and so gives back each
date that lies in its year (`Date.Valid.ofDay_day`), as those do that are made of a year and a place
in it, its months or its weeks. The clock of an instant shows the date and the time of day that the
instant was made of (`Instant.localDate_ofLocal`, `Instant.localTime_ofLocal`).
-/

namespace MetricRegistry.Timestamp

/-! ## Years -/

/-- The days before a year are counted by its leap years. -/
lemma daysBeforeYear_eq (year : Int) : daysBeforeYear year
    = 365 * (year - 1) + (year - 1) / 4 - (year - 1) / 100 + (year - 1) / 400 :=
  rfl

/-- A year has the days from its beginning to that of the next. -/
lemma daysBeforeYear_succ (year : Int) :
    daysBeforeYear (year + 1) = daysBeforeYear year + daysInYear year := by
  unfold daysInYear isLeapYear
  simp only [daysBeforeYear_eq, Bool.and_eq_true, Bool.or_eq_true, beq_iff_eq, bne_iff_ne, ne_eq]
  split <;> omega

/-- A later year begins later. -/
lemma daysBeforeYear_mono {x y : Int} (le : x ≤ y) : daysBeforeYear x ≤ daysBeforeYear y := by
  simp only [daysBeforeYear_eq]
  omega

/-- The year that is guessed for a day is at most one away. -/
lemma guess_near (n : Int) : daysBeforeYear (n * 400 / 146097) ≤ n
    ∧ n < daysBeforeYear (n * 400 / 146097 + 3) := by
  simp only [daysBeforeYear_eq]
  omega

namespace Date

/-- A day of its year. -/
def Valid (d : Date) : Prop :=
  1 ≤ d.ordinal ∧ d.ordinal ≤ daysInYear d.year

variable {d d' : Date}

/-- A date lies in its year and in no other. -/
lemma Valid.day_bounds (valid : d.Valid) : daysBeforeYear d.year - daysBeforeYear 1970 ≤ d.day
    ∧ d.day < daysBeforeYear (d.year + 1) - daysBeforeYear 1970 := by
  obtain ⟨first, last⟩ := valid
  rw [daysBeforeYear_succ, day]
  omega

/-- The year of an earlier day is no later. -/
lemma Valid.year_le (valid : d.Valid) (valid' : d'.Valid) (le : d.day ≤ d'.day) :
    d.year ≤ d'.year := by
  by_contra later
  have before := daysBeforeYear_mono (show d'.year + 1 ≤ d.year by omega)
  have := valid.day_bounds
  have := valid'.day_bounds
  omega

/-- A valid date is known by its day. -/
lemma Valid.eq_of_day (valid : d.Valid) (valid' : d'.Valid) (same : d.day = d'.day) : d = d' := by
  obtain ⟨year, ordinal⟩ := d
  obtain ⟨year', ordinal'⟩ := d'
  obtain rfl : year = year' :=
    Int.le_antisymm (valid.year_le valid' same.le) (valid'.year_le valid same.ge)
  simp only [day] at same
  congr 1
  omega

/-- A day has a valid date, which has it. -/
lemma ofDay_spec (n : Int) : (ofDay n).Valid ∧ (ofDay n).day = n := by
  have near := guess_near (n + daysBeforeYear 1970)
  have found : daysBeforeYear (ofDay n).year ≤ n + daysBeforeYear 1970
      ∧ n + daysBeforeYear 1970 < daysBeforeYear ((ofDay n).year + 1) := by
    -- the guess is at most one year away on either side
    unfold ofDay
    dsimp only
    split
    case isTrue early =>
      rw [Int.sub_add_cancel, Int.add_sub_cancel]
      exact ⟨near.1, early⟩
    split
    case isTrue late =>
      exact ⟨late, Int.lt_of_lt_of_le near.2 (daysBeforeYear_mono (by omega))⟩
    case isFalse early late => exact ⟨Int.not_lt.mp early, Int.not_le.mp late⟩
  rw [daysBeforeYear_succ] at found
  have ordinal : (ofDay n).ordinal
      = (n + daysBeforeYear 1970 - daysBeforeYear (ofDay n).year + 1).toNat := rfl
  rw [Valid, day, ordinal]
  omega

/-- A date is found again by its day. -/
lemma Valid.ofDay_day (valid : d.Valid) : ofDay d.day = d :=
  (ofDay_spec d.day).1.eq_of_day valid (ofDay_spec d.day).2

/-- A date made of the place of a day in its year is valid. -/
lemma valid_of_ofOrdinal? {year ordinal : Int} (made : ofOrdinal? year ordinal = some d) :
    d.Valid := by
  unfold ofOrdinal? at made
  split at made
  case isFalse => cases made
  case isTrue inside =>
    cases made
    simp only [Bool.and_eq_true, decide_eq_true_eq] at inside
    unfold Valid
    dsimp only
    omega

/-- A month ends within its year. -/
lemma daysBeforeMonth_add (year : Int) {month : Nat} (some : 0 < daysInMonth year month) :
    daysBeforeMonth year month + daysInMonth year month ≤ daysInYear year := by
  have range : 1 ≤ month ∧ month ≤ 12 := by
    unfold daysInMonth at some
    split at some <;> omega
  have months : daysInYear year = 337 + daysInMonth year 2 := by
    unfold daysInYear daysInMonth
    split <;> rfl
  rw [months]
  obtain ⟨least, most⟩ := range
  interval_cases month <;> simp [daysBeforeMonth, List.range_succ, daysInMonth] <;> omega

/-- A date made of a month and a day is valid. -/
lemma valid_of_ofCalendar? {year : Int} {month place : Nat}
    (made : ofCalendar? year month place = some d) : d.Valid := by
  unfold ofCalendar? at made
  split at made
  case isFalse => cases made
  case isTrue inside =>
    cases made
    simp only [Bool.and_eq_true, decide_eq_true_eq] at inside
    have := daysBeforeMonth_add year (show 0 < daysInMonth year month by omega)
    unfold Valid
    dsimp only
    omega

/-- A date made of a week and a day is valid. -/
lemma valid_of_ofWeek? {year : Int} {week place : Nat} (made : ofWeek? year week place = some d) :
    d.Valid := by
  simp only [ofWeek?] at made
  split at made
  case isFalse => cases made
  split at made
  case isFalse => cases made
  cases made
  exact (ofDay_spec _).1

end Date

/-! ## Clocks -/

namespace TimeOfDay

/-- A time of day that a clock shows. -/
def Valid (t : TimeOfDay) : Prop :=
  t.hour ≤ 23 ∧ t.minute ≤ 59 ∧ t.second ≤ 59 ∧ t.nanosecond ≤ 999999999

/-- Midnight is a valid time. -/
lemma valid_midnight : midnight.Valid := by
  unfold Valid midnight
  decide

variable {t : TimeOfDay}

/-- A time is made of its parts if they are those of a valid one. -/
lemma ofParts?_eq_some {hour minute second nanosecond : Nat} :
    ofParts? hour minute second nanosecond = some t
      ↔ t.Valid ∧ ⟨hour, minute, second, nanosecond⟩ = t := by
  unfold ofParts? Valid
  split
  case isTrue inside =>
    simp only [Bool.and_eq_true, decide_eq_true_eq] at inside
    rw [Option.some.injEq]
    refine ⟨?_, And.right⟩
    rintro rfl
    exact ⟨by dsimp only; omega, rfl⟩
  case isFalse outside =>
    simp only [Bool.and_eq_true, decide_eq_true_eq] at outside
    refine ⟨nofun, ?_⟩
    rintro ⟨valid, rfl⟩
    dsimp only at valid
    exact (outside (by omega)).elim

/-- A valid time is within its day. -/
lemma Valid.nanos_bounds (valid : t.Valid) : 0 ≤ t.nanos ∧ t.nanos < nanosPerDay := by
  unfold Valid at valid
  unfold nanos nanosPerDay nanosPerSecond
  omega

/-- A valid time is the one of its nanoseconds. -/
lemma Valid.ofNanos_nanos (valid : t.Valid) : ofNanos t.nanos = t := by
  unfold Valid at valid
  have seconds : t.nanos / nanosPerSecond = (t.hour * 3600 + t.minute * 60 + t.second : Nat) := by
    unfold nanos nanosPerSecond
    omega
  have rest : t.nanos % nanosPerSecond = t.nanosecond := by
    unfold nanos nanosPerSecond
    omega
  rw [ofNanos, seconds, rest, Int.toNat_natCast, Int.toNat_natCast]
  obtain ⟨hour, minute, second, nanosecond⟩ := t
  dsimp only at valid ⊢
  simp only [mk.injEq, and_true]
  omega

end TimeOfDay

namespace Instant

variable {date : Date} {time : TimeOfDay} {offset : Int}

/-- The local nanoseconds of an instant are those that it is made of. -/
lemma localNanos_ofLocal :
    (ofLocal date time offset).localNanos = date.day * nanosPerDay + time.nanos := by
  rw [localNanos, ofLocal]
  exact Int.sub_add_cancel ..

/-- The local date of an instant is the one that it is made of. -/
lemma localDate_ofLocal (valid : date.Valid) (valid' : time.Valid) :
    (ofLocal date time offset).localDate = date := by
  have bounds := valid'.nanos_bounds
  rw [localDate, localNanos_ofLocal, Int.mul_comm, Int.mul_add_ediv_left _ _ (by decide),
    Int.ediv_eq_zero_of_lt bounds.1 bounds.2, Int.add_zero, valid.ofDay_day]

/-- The local time of an instant is the one that it is made of. -/
lemma localTime_ofLocal (valid : time.Valid) : (ofLocal date time offset).localTime = time := by
  have bounds := valid.nanos_bounds
  rw [localTime, localNanos_ofLocal, Int.mul_comm, Int.mul_add_emod_self_left,
    Int.emod_eq_of_lt bounds.1 bounds.2, valid.ofNanos_nanos]

end Instant

end MetricRegistry.Timestamp
