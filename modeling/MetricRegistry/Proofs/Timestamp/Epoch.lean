import MetricRegistry.Proofs.Text.Numerals
import MetricRegistry.Timestamp.Format

/-!
# Counts since the epoch

What `integer?` reads are the numerals that fit in its bits (`integer?_utf8`), so a text is a count
since the epoch if it is such a numeral between blanks. The calendar ends long before the bits do:
every count that it has fits in the widths that come before, and none that it lacks is read.
`epoch_read` puts this together for seconds and for milliseconds.
-/

namespace MetricRegistry.Timestamp
open Ascii Text

variable {bits : Nat} {bytes : List UInt8} {raw : String} {n v : Int} {t : Instant}

/-! ## Integers -/

/-- A number that so many bits hold, of which one is the sign's. -/
def Fits (bits : Nat) (n : Int) : Prop :=
  -(Nat.pow 2 (bits - 1) : Int) ≤ n ∧ n < (Nat.pow 2 (bits - 1) : Int)

/-- The integers of 64 bits. -/
lemma fits_64 : Fits 64 n ↔ -9223372036854775808 ≤ n ∧ n < 9223372036854775808 :=
  Iff.rfl

/-- The integers of 128 bits. -/
lemma fits_128 : Fits 128 n ↔ -170141183460469231731687303715884105728 ≤ n
    ∧ n < 170141183460469231731687303715884105728 :=
  Iff.rfl

/-- An integer fits as itself. -/
lemma fits?_eq_some : fits? bits n = some v ↔ Fits bits n ∧ n = v := by
  simp [fits?, Fits]

/-- The sign of a numeral is taken off its digits. -/
lemma sign_bytes (x : Numeral) : ∃ signed,
    sign x.bytes
      = (signed, decide (x.sign = ['-']), x.digits.map fun c => c.toNat.toUInt8) := by
  obtain ⟨start, digits, signed, written, decimal⟩ := x
  simp only [List.mem_cons, List.not_mem_nil, or_false] at signed
  obtain rfl | rfl | rfl := signed
  · obtain ⟨d, ds, rfl⟩ := List.exists_cons_of_ne_nil written
    have ne := ne_sign_of_isDigit (digit?_toUInt8 (decimal d List.mem_cons_self)).1
    refine ⟨false, ?_⟩
    simp only [Numeral.bytes, Numeral.chars, List.nil_append, List.map_cons, sign, beq_iff_eq,
      if_neg ne.1, if_neg ne.2]
    rfl
  · exact ⟨true, rfl⟩
  · exact ⟨true, rfl⟩

/-- The digits of a numeral spell its size. -/
lemma natOfDigits_digits (x : Numeral) :
    natOfDigits (x.digits.map fun c => c.toNat.toUInt8) = x.size :=
  foldl_digit?_map x.decimal 0

/-- Only one integer is written in a text. -/
lemma value_eq {x y : Numeral} (same : x.chars = y.chars) : x.value = y.value := by
  obtain ⟨_, split⟩ := sign_bytes x
  obtain ⟨_, split'⟩ := sign_bytes y
  rw [Numeral.bytes, same, ← Numeral.bytes, split'] at split
  simp only [Prod.mk.injEq, decide_eq_decide] at split
  rw [Numeral.value, Numeral.value, ← natOfDigits_digits x, ← natOfDigits_digits y,
    ← split.2.2]
  simp only [split.2.1]

/-- A numeral is read as its value, if that fits. -/
lemma integer?_bytes (x : Numeral) : integer? bits x.bytes = fits? bits x.value := by
  obtain ⟨_, split⟩ := sign_bytes x
  have decimal : (x.digits.map fun c => c.toNat.toUInt8).all isDigit = true := by
    simpa using fun c mem => (digit?_toUInt8 (x.decimal c mem)).1
  simp [integer?, split, decimal, x.written, natOfDigits_digits, signed, Numeral.value]

/-- Digits after a sign or none are the bytes of a numeral. -/
lemma exists_bytes {start ds : List UInt8} (signed : start ∈ [[], [plus], [minus]])
    (written : ds ≠ []) (decimal : ∀ b ∈ ds, isDigit b = true) :
    ∃ x : Numeral, start ++ ds = x.bytes := by
  let digits := ds.map fun b => Char.ofNat b.toNat
  have back : (digits.map fun c => c.toNat.toUInt8) = ds := by
    rw [List.map_map]
    exact (List.map_congr_left fun b mem => (isDigit_ofNat (decimal b mem)).2).trans
      (List.map_id ds)
  have chars : ∀ c ∈ digits, c.isDigit := by
    simpa [digits] using fun b mem => (isDigit_ofNat (decimal b mem)).1
  have made (sign : List Char) (mem : sign ∈ [[], ['+'], ['-']])
      (same : (sign.map fun c => c.toNat.toUInt8) = start) : ∃ x : Numeral, start ++ ds = x.bytes :=
    ⟨⟨sign, digits, mem, by simpa [digits] using written, chars⟩, by
      rw [Numeral.bytes, Numeral.chars, List.map_append, back, same]⟩
  simp only [List.mem_cons, List.not_mem_nil, or_false] at signed
  obtain rfl | rfl | rfl := signed
  · exact made [] (by decide) rfl
  · exact made ['+'] (by decide) rfl
  · exact made ['-'] (by decide) rfl

/-- A sign that may be read is one or nothing, and stands in front of what is left. -/
lemma sign_eq (bytes : List UInt8) :
    ∃ start ∈ [[], [plus], [minus]], bytes = start ++ (sign bytes).2.2 := by
  unfold sign
  split
  · exact ⟨[], by simp⟩
  · split
    case isTrue eq =>
      obtain rfl := eq_of_beq eq
      exact ⟨[plus], by simp⟩
    split
    case isTrue eq =>
      obtain rfl := eq_of_beq eq
      exact ⟨[minus], by simp⟩
    exact ⟨[], by simp⟩

/-- The texts that are read as integers are the numerals whose value fits. -/
lemma integer?_utf8 {s : String} : integer? bits (utf8 s) = some v
    ↔ ∃ x : Numeral, s.toList = x.chars ∧ Fits bits x.value ∧ x.value = v := by
  constructor
  · intro read
    have decimal : (sign (utf8 s)).2.2 ≠ [] ∧ ∀ b ∈ (sign (utf8 s)).2.2, isDigit b = true := by
      by_contra other
      have refused : ((sign (utf8 s)).2.2.isEmpty || !(sign (utf8 s)).2.2.all isDigit) = true := by
        simpa [Decidable.or_iff_not_imp_left] using other
      simp [integer?, refused] at read
    obtain ⟨start, signed, eq⟩ := sign_eq (utf8 s)
    obtain ⟨x, same⟩ := exists_bytes signed decimal.1 decimal.2
    rw [← eq] at same
    rw [same, integer?_bytes] at read
    exact ⟨x, Numeral.utf8_eq_bytes.mp same, fits?_eq_some.mp read⟩
  · rintro ⟨x, same, fits⟩
    rw [Numeral.utf8_eq_bytes.mpr same, integer?_bytes]
    exact fits?_eq_some.mpr fits

/-! ## Instants -/

/-- A second of the years that the calendar has. -/
def InCalendar (second : Int) : Prop :=
  Instant.minSeconds ≤ second ∧ second ≤ Instant.maxSeconds

/-- The seconds of the calendar fit into 64 bits. -/
lemma InCalendar.fits (inCalendar : InCalendar n) : Fits 64 n := by
  unfold InCalendar Instant.minSeconds Instant.maxSeconds at inCalendar
  rw [fits_64]
  omega

/-- Seconds are an instant if they are in the calendar. -/
lemma Instant.ofUnixSeconds?_eq_some :
    ofUnixSeconds? n = some t ↔ InCalendar n ∧ ⟨n * nanosPerSecond, 0⟩ = t := by
  simp [ofUnixSeconds?, InCalendar]

/-- Milliseconds make an instant if the calendar has the second in which they lie. -/
lemma Instant.ofUnixNanos?_eq_some : ofUnixNanos? (n * 1000000) = some t
    ↔ InCalendar (n / 1000) ∧ ⟨n * 1000000, 0⟩ = t := by
  have whole : n * 1000000 / nanosPerSecond = n / 1000 := by
    unfold nanosPerSecond
    omega
  have rest : n / 1000 * nanosPerSecond / nanosPerSecond * nanosPerSecond
      + (n * 1000000 % nanosPerSecond).toNat = n * 1000000 := by
    unfold nanosPerSecond
    omega
  rw [ofUnixNanos?, whole, Option.map_eq_some_iff]
  simp only [ofUnixSeconds?_eq_some, withNanosecond]
  constructor
  · rintro ⟨_, ⟨inCalendar, rfl⟩, rfl⟩
    exact ⟨inCalendar, by rw [rest]⟩
  · rintro ⟨inCalendar, rfl⟩
    exact ⟨_, ⟨inCalendar, rfl⟩, by rw [rest]⟩

/-! ## Texts -/

/-- A text that is read as a count is an integer between blanks. -/
lemma integer?_trim : integer? bits (utf8 (trim raw)) = some v
    ↔ ∃ x : Numeral, x.Within raw ∧ Fits bits x.value ∧ x.value = v := by
  simp only [integer?_utf8, Numeral.within_iff]

/-- A text that is a numeral is read as its value, if that fits. -/
lemma integer?_of_within {x : Numeral} (within : x.Within raw) :
    integer? bits (utf8 (trim raw)) = some v ↔ Fits bits x.value ∧ x.value = v := by
  rw [integer?_trim]
  constructor
  · rintro ⟨y, within', read⟩
    rwa [value_eq ((Numeral.within_iff.mp within).symm.trans (Numeral.within_iff.mp within'))]
  · exact fun read => ⟨x, within, read⟩

/-- Seconds are read into 64 bits. -/
lemma parseWith_epochSeconds (raw : String) : parseWith "epoch_seconds" raw
    = (integer? 64 (utf8 (trim raw))).bind Instant.ofUnixSeconds? :=
  rfl

/-- Milliseconds are read and multiplied in 128 bits. -/
lemma parseWith_epochMillis (raw : String) : parseWith "epoch_millis" raw
    = (integer? 128 (utf8 (trim raw))).bind fun n =>
      (fits? 128 (n * 1000000)).bind Instant.ofUnixNanos? :=
  rfl

/-- A count of seconds is read if the calendar has it. -/
lemma epochSeconds_eq_some {x : Numeral} (within : x.Within raw) :
    parseWith "epoch_seconds" raw = some t
      ↔ (-377705116800 ≤ x.value ∧ x.value ≤ 253402300799) ∧ ⟨x.value * 1000000000, 0⟩ = t := by
  simp only [parseWith_epochSeconds, Option.bind_eq_some_iff, integer?_of_within within,
    Instant.ofUnixSeconds?_eq_some]
  constructor
  · rintro ⟨_, ⟨-, rfl⟩, read⟩
    exact read
  · exact fun read => ⟨_, ⟨InCalendar.fits read.1, rfl⟩, read⟩

/-- A count of milliseconds is read if the calendar has the second in which it lies. -/
lemma epochMillis_eq_some {x : Numeral} (within : x.Within raw) :
    parseWith "epoch_millis" raw = some t
      ↔ (-377705116800000 ≤ x.value ∧ x.value ≤ 253402300799999)
        ∧ ⟨x.value * 1000000, 0⟩ = t := by
  have years : InCalendar (x.value / 1000)
      ↔ -377705116800000 ≤ x.value ∧ x.value ≤ 253402300799999 := by
    unfold InCalendar Instant.minSeconds Instant.maxSeconds
    omega
  simp only [parseWith_epochMillis, Option.bind_eq_some_iff, integer?_of_within within,
    fits?_eq_some, ← years]
  constructor
  · rintro ⟨_, ⟨-, rfl⟩, _, ⟨-, rfl⟩, read⟩
    exact Instant.ofUnixNanos?_eq_some.mp read
  · intro read
    -- no count of the calendar is too long for the widths that come before the calendar
    have inside := years.mp read.1
    have fits : Fits 128 x.value ∧ Fits 128 (x.value * 1000000) := by
      rw [fits_128, fits_128]
      omega
    exact ⟨_, ⟨fits.1, rfl⟩, _, ⟨fits.2, rfl⟩, Instant.ofUnixNanos?_eq_some.mpr read⟩

/-- A text that is no integer is no count. -/
lemma epoch_unread (other : ∀ x : Numeral, ¬ x.Within raw) :
    parseWith "epoch_seconds" raw = none ∧ parseWith "epoch_millis" raw = none := by
  have unread (bits : Nat) : integer? bits (utf8 (trim raw)) = none :=
    Option.eq_none_iff_forall_ne_some.mpr fun v read => by
      obtain ⟨x, within, -⟩ := integer?_trim.mp read
      exact other x within
  rw [parseWith_epochSeconds, parseWith_epochMillis, unread, unread]
  exact ⟨rfl, rfl⟩

/-- A text is a count since the epoch if it is an integer between blanks that the calendar has. A
count of seconds is the count of milliseconds with three more zeros. -/
theorem epoch_read (raw : String) :
    (∀ (x : Numeral) (t : Instant), x.Within raw →
        (parseWith "epoch_millis" raw = some t
          ↔ (-377705116800000 ≤ x.value ∧ x.value ≤ 253402300799999)
            ∧ ⟨x.value * 1000000, 0⟩ = t)
        ∧ (parseWith "epoch_seconds" raw = some t
          ↔ (-377705116800 ≤ x.value ∧ x.value ≤ 253402300799)
            ∧ ⟨x.value * 1000000000, 0⟩ = t))
      ∧ (∀ (x : Numeral) (raw' : String), x.Within raw → x.thousandfold.Within raw' →
        parseWith "epoch_seconds" raw = parseWith "epoch_millis" raw')
      ∧ ((∀ x : Numeral, ¬ x.Within raw) →
        parseWith "epoch_seconds" raw = none ∧ parseWith "epoch_millis" raw = none) := by
  refine ⟨fun x t within => ⟨epochMillis_eq_some within, epochSeconds_eq_some within⟩,
    fun x raw' within within' => ?_, epoch_unread⟩
  refine Option.ext fun t => ?_
  rw [epochSeconds_eq_some within, epochMillis_eq_some within', Numeral.value_thousandfold,
    Int.mul_assoc]
  refine and_congr ?_ Iff.rfl
  omega

/-- A count of milliseconds so far beyond the calendar that its seconds have 65 bits is not read. -/
theorem epoch_read_beyond :
    (∃ x : Numeral, x.Within "\t18446744073709551616000" ∧ x.value = 18446744073709551616000)
      ∧ parseWith "epoch_millis" "\t18446744073709551616000" = none := by
  have within : ∃ x : Numeral, x.Within "\t18446744073709551616000"
      ∧ x.value = 18446744073709551616000 := by
    refine ⟨⟨[], "18446744073709551616000".toList, by decide, by decide +kernel,
      List.all_eq_true.mp (by decide +kernel)⟩, ?_, by decide +kernel⟩
    exact Numeral.within_iff.mpr (by decide +kernel)
  refine ⟨within, Option.eq_none_iff_forall_ne_some.mpr fun t read => ?_⟩
  obtain ⟨x, within, value⟩ := within
  obtain ⟨read', -⟩ := (epoch_read _).1 x t within
  have inside := (read'.mp read).1.2
  rw [value] at inside
  exact absurd inside (by decide)

end MetricRegistry.Timestamp
