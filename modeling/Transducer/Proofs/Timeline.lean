import Mathlib.Algebra.BigOperators.Group.List.Basic
import Mathlib.Data.List.GetD
import Mathlib.Logic.Function.Iterate
import Transducer.Proofs.Spans

/-!
# The time line

Universal time without leap seconds is a line: the days of the calendar follow
one another, and each has 86400 seconds. An instant has a position on it, and so
has a written time, whatever its offset is. The time from one instant to another
is the difference of their positions.

* `Calendar.Date.next`: the day after a date.
  `Calendar.Date.iterate_next_eq_iff`: the numbers of two days tell how many
  days lie between them.
* `Instant.position_of_parse?`: an instant is where its text says.
* `Instant.elapsed_eq_sub`, `Instant.le_iff_position_le`: the time between two
  instants, and their order.
* `Instant.intermediate_fits`: all numbers that come up in between are 64-bit
  numbers.
* `Journal.duration_exact_on_time_line`: the duration of a journal is the time
  from its first move to its last.
-/

namespace Transducer

/-! ## Days that follow one another -/

namespace Calendar

theorem one_le_monthLength (year : Int) {month : Nat} (inYear : month < 12) :
    1 ≤ (monthLengths year).getD month 0 := by
  have long : ∀ length ∈ monthLengths year, 1 ≤ length := by
    simp only [monthLengths, List.forall_mem_cons]
    split <;> decide
  have listed : month < (monthLengths year).length := inYear
  rw [List.getD_eq_getElem _ _ listed]
  exact long _ (List.getElem_mem _)

namespace Date

/-- The next day of the month, or else the first of the next month, which after
the twelfth is in the next year. -/
def next (d : Date) : Date :=
  if d.day < (monthLengths d.year).getD (d.month - 1) 0 then ⟨d.year, d.month, d.day + 1⟩
  else if d.month < 12 then ⟨d.year, d.month + 1, 1⟩
  else ⟨d.year + 1, 1, 1⟩

variable {d : Date}

theorem exists_next (exist : d.Exists) : d.next.Exists := by
  obtain ⟨firstMonth, lastMonth, firstDay, lastDay⟩ := exist
  unfold next
  split
  · rename_i within
    exact ⟨firstMonth, lastMonth, Nat.le_add_left 1 d.day, within⟩
  · split
    · rename_i earlier
      exact ⟨Nat.le_add_left 1 d.month, earlier, Nat.le_refl 1, one_le_monthLength d.year earlier⟩
    · exact ⟨Nat.le_refl 1, Nat.le_add_left 1 11, Nat.le_refl 1,
        one_le_monthLength (d.year + 1) (Nat.zero_lt_succ 11)⟩

theorem dayNumber_next (exist : d.Exists) : d.next.dayNumber = d.dayNumber + 1 := by
  obtain ⟨firstMonth, lastMonth, firstDay, lastDay⟩ := exist
  have month : d.month - 1 + 1 = d.month := Nat.sub_add_cancel firstMonth
  have listed : d.month - 1 < (monthLengths d.year).length := by
    show d.month - 1 < 12
    omega
  have days : ((monthLengths d.year).take (d.month - 1 + 1)).sum =
      ((monthLengths d.year).take (d.month - 1)).sum +
        (monthLengths d.year).getD (d.month - 1) 0 := by
    rw [List.sum_take_succ _ _ listed, List.getD_eq_getElem _ _ listed]
  rw [month] at days
  unfold next
  split
  · simp only [dayNumber]
    omega
  · split
    · simp only [dayNumber, Nat.add_sub_cancel]
      omega
    · -- The days of the twelve months are those of the year.
      have december : d.month = 12 := by omega
      have year := sum_monthLengths d.year
      have all : (monthLengths d.year).take d.month = monthLengths d.year := by
        rw [december]
        rfl
      rw [all] at days
      simp only [dayNumber, Nat.sub_self, List.take_zero, List.sum_nil]
      omega

theorem iterate_next (exist : d.Exists) (n : Nat) :
    (next^[n] d).Exists ∧ (next^[n] d).dayNumber = d.dayNumber + n := by
  induction n with
  | zero => exact ⟨exist, (Int.add_zero _).symm⟩
  | succ n ih =>
      rw [Function.iterate_succ_apply']
      refine ⟨exists_next ih.1, ?_⟩
      rw [dayNumber_next ih.1, ih.2, Int.natCast_succ, Int.add_assoc]

/-- A date comes so many days after another as the number of its day is
greater. -/
theorem iterate_next_eq_iff {d' : Date} (exist : d.Exists) (exist' : d'.Exists) (n : Nat) :
    next^[n] d = d' ↔ d'.dayNumber = d.dayNumber + n := by
  obtain ⟨reached, number⟩ := iterate_next exist n
  constructor
  · rintro rfl
    exact number
  · intro later
    rw [← ofDayNumber_dayNumber reached, number, ← later, ofDayNumber_dayNumber exist']

end Date

end Calendar

/-! ## Positions -/

namespace Instant

/-- The nanoseconds since the start of year 0, where every day has 86400
seconds. -/
def position (t : Instant) : Int :=
  (t.day * 86400 + t.second) * 1000000000 + t.nano

/-- The position that a text gives: that of its local time, moved back by the
offset. -/
def Written.position (w : Written) : Int :=
  (w.date.dayNumber * 86400 + (w.hour * 3600 + w.minute * 60 + w.second) - w.offset * 60) *
    1000000000 + w.nano

theorem parts_of_ofParts? {day : Int} {second nano : Nat} {t : Instant}
    (read : ofParts? day second nano = some t) :
    t.day = day ∧ t.second = second ∧ t.nano = nano := by
  unfold ofParts? at read
  split at read
  · cases read
    exact ⟨rfl, rfl, rfl⟩
  · contradiction

theorem position_of_instant? {w : Written} {t : Instant} (read : w.instant? = some t) :
    t.position = w.position := by
  unfold Written.instant? at read
  obtain ⟨_, _, read⟩ := Option.bind_eq_some_iff.mp read
  obtain ⟨_, _, read⟩ := Option.bind_eq_some_iff.mp read
  obtain ⟨_, _, read⟩ := Option.bind_eq_some_iff.mp read
  by_cases leap : w.second = 60
  · -- The second 60 is a second after the second 59.
    simp only [if_pos leap] at read
    obtain ⟨day, second, nano⟩ := parts_of_ofParts? read
    rw [position, Written.position, day, second, nano, leap]
    omega
  · simp only [if_neg leap] at read
    obtain ⟨day, second, nano⟩ := parts_of_ofParts? read
    rw [position, Written.position, day, second, nano]
    omega

theorem position_of_parse? {text : String} {w : Written} {t : Instant}
    (numbers : Written.ofChars? text.toList = some w) (read : parse? text = some t) :
    t.position = w.position := by
  rw [parse?, numbers, Option.bind_some] at read
  exact position_of_instant? read

/-! ## Differences of positions -/

section Plain

variable {a b : Instant}

theorem nano_lt_of_plain {t : Instant} (plain : t.isLeap = false) : t.nano < 1000000000 :=
  Nat.lt_of_not_le (of_decide_eq_false plain)

theorem le_iff_position_le (plainA : a.isLeap = false) (plainB : b.isLeap = false) :
    a ≤ b ↔ a.position ≤ b.position := by
  have secondA := a.second_lt
  have secondB := b.second_lt
  have nanoA := nano_lt_of_plain plainA
  have nanoB := nano_lt_of_plain plainB
  show a.le b ↔ _
  unfold le position
  omega

theorem eq_of_position_eq (plainA : a.isLeap = false) (plainB : b.isLeap = false)
    (same : a.position = b.position) : a = b := by
  have secondA := a.second_lt
  have secondB := b.second_lt
  have nanoA := nano_lt_of_plain plainA
  have nanoB := nano_lt_of_plain plainB
  unfold position at same
  have day : a.day = b.day := by omega
  have second : a.second = b.second := by omega
  have nano : a.nano = b.nano := by omega
  cases a
  cases b
  simp_all

theorem elapsed_eq_sub (plainA : a.isLeap = false) (plainB : b.isLeap = false) :
    elapsed a b = b.position - a.position := by
  have correction : leapCorrection a b = 0 := by
    simp [leapCorrection, plainA, plainB]
  rw [elapsed, elapsedSeconds, correction, position, position]
  omega

end Plain

theorem span?_eq_some_iff {a b : Instant} {d : Span} :
    a.span? b = some d ↔
      0 ≤ elapsed a b ∧ (d.seconds : Int) = elapsed a b / 1000000000 ∧
        (d.nanos : Int) = elapsed a b % 1000000000 := by
  unfold span?
  obtain ⟨seconds, nanos, small⟩ := d
  split
  · rename_i forward
    simp only [Span.ofNanos, Option.some.injEq, Span.mk.injEq, forward, true_and]
    omega
  · rename_i backward
    simp [backward]

/-! ## Numbers in between -/

/-- The numbers of days and seconds that come up between two instants and the
time from one to the other. -/
def intermediates (a b : Instant) : List Int :=
  [a.day, b.day, b.day - a.day, (b.day - a.day) * 86400, b.second - a.second, leapCorrection a b,
    (b.second - a.second) + leapCorrection a b, (b.day - a.day) * 86400 + (b.second - a.second),
    elapsedSeconds a b, (b.nano - a.nano) / 1000000000, elapsed a b / 1000000000]

theorem leapCorrection_bounds (a b : Instant) :
    -1 ≤ leapCorrection a b ∧ leapCorrection a b ≤ 1 := by
  unfold leapCorrection
  split
  · decide
  · split <;> decide

theorem intermediate_fits (a b : Instant) {n : Int} (between : n ∈ intermediates a b) :
    Int64.minValue.toInt ≤ n ∧ n ≤ Int64.maxValue.toInt := by
  have least : Int64.minValue.toInt = -9223372036854775808 := rfl
  have greatest : Int64.maxValue.toInt = 9223372036854775807 := rfl
  have firstA : -95745764 ≤ a.day := a.first_le
  have firstB : -95745764 ≤ b.day := b.first_le
  have lastA : a.day < 95745765 := a.day_lt
  have lastB : b.day < 95745765 := b.day_lt
  have correction := leapCorrection_bounds a b
  have secondA := a.second_lt
  have secondB := b.second_lt
  have nanoA := a.nano_lt
  have nanoB := b.nano_lt
  simp only [intermediates, List.mem_cons, List.not_mem_nil, or_false, elapsed,
    elapsedSeconds] at between
  rw [least, greatest]
  omega

end Instant

/-! ## Durations -/

namespace Journal

variable {S E : Type}

/-- If neither the first move of a journal nor the last is dated in a leap
second, the journal has a duration exactly if the last move is not dated before
the first, and the duration is the difference of the two positions on the time
line, in whole seconds and nanoseconds. No other move counts. The position of an
instant is the one that its text gives, in whatever offset it is written, and
two texts that give the same position are read as the same instant. On the time
line the days follow one another as in the calendar. And no number that comes up
on the way needs more than 64 bits. -/
theorem duration_exact_on_time_line (j : Journal S E) (first last : Move S E)
    (head : j.toList.head? = some first) (tail : j.toList.getLast? = some last)
    (plainFirst : first.time.isLeap = false) (plainLast : last.time.isLeap = false) :
    let difference := last.time.position - first.time.position
    (j.duration?.isSome ↔ first.time ≤ last.time) ∧
    (∀ d : Span, j.duration? = some d ↔
      first.time ≤ last.time ∧ (d.seconds : Int) = difference / 1000000000 ∧
        (d.nanos : Int) = difference % 1000000000) ∧
    (∀ (S' E' : Type) (other : Journal S' E') (first' last' : Move S' E'),
      other.toList.head? = some first' → other.toList.getLast? = some last' →
      first'.time = first.time → last'.time = last.time → other.duration? = j.duration?) ∧
    (∀ (text : String) (w : Instant.Written) (t : Instant),
      Instant.Written.ofChars? text.toList = some w → Instant.parse? text = some t →
      t.position = w.position ∧
      ∀ (text' : String) (w' : Instant.Written) (t' : Instant),
        Instant.Written.ofChars? text'.toList = some w' → Instant.parse? text' = some t' →
        t.isLeap = false → t'.isLeap = false → w'.position = w.position → t' = t) ∧
    (∀ (d d' : Calendar.Date) (n : Nat), d.Exists → d'.Exists →
      (Calendar.Date.next^[n] d = d' ↔ d'.dayNumber = d.dayNumber + n)) ∧
    ∀ a b : Instant, ∀ n ∈ a.intermediates b,
      Int64.minValue.toInt ≤ n ∧ n ≤ Int64.maxValue.toInt := by
  intro difference
  have elapsed : first.time.elapsed last.time = difference :=
    Instant.elapsed_eq_sub plainFirst plainLast
  have forward : first.time ≤ last.time ↔ 0 ≤ difference := by
    rw [Instant.le_iff_position_le plainFirst plainLast]
    exact Int.sub_nonneg.symm
  refine ⟨?_, ?_, ?_, ?_, ?_, ?_⟩
  · rw [duration?_eq_span? head tail, Instant.isSome_span?_iff, elapsed, forward]
  · intro d
    rw [duration?_eq_span? head tail, Instant.span?_eq_some_iff, elapsed, forward]
  · intro S' E' other first' last' head' tail' sameFirst sameLast
    rw [duration?_eq_span? head tail, duration?_eq_span? head' tail', sameFirst, sameLast]
  · intro text w t numbers read
    have position := Instant.position_of_parse? numbers read
    refine ⟨position, ?_⟩
    intro text' w' t' numbers' read' plain plain' same
    have position' := Instant.position_of_parse? numbers' read'
    exact Instant.eq_of_position_eq plain' plain (position'.trans (same.trans position.symm))
  · intro d d' n exist exist'
    exact Calendar.Date.iterate_next_eq_iff exist exist' n
  · intro a b n between
    exact Instant.intermediate_fits a b between

/-- From the last nanosecond before year 0, which is a leap year, to an hour and
a half before the first of March, where it is the first of March already. -/
theorem coins_over_leap_day_exact :
    ∃ first second : Instant,
      Instant.parse? "-0001-12-31T23:59:59.999999999Z" = some first ∧
      Instant.parse? "0000-03-01T00:30:00+02:00" = some second ∧
      ∃ d : Span, (twoCoins first second).duration? = some d ∧
        d.seconds = 5178600 ∧ d.nanos = 1 := by
  refine ⟨⟨-1, 86399, 999999999, by decide, by decide, by decide, by decide, by decide⟩,
    ⟨59, 81000, 0, by decide, by decide, by decide, by decide, by decide⟩,
    by decide +kernel, by decide +kernel, ⟨5178600, 1, by decide⟩, ?_, rfl, rfl⟩
  exact ((duration_exact_on_time_line (twoCoins _ _) _ _ rfl rfl (by decide) (by decide)).2.1 _).mpr
    ⟨by decide, by decide, by decide⟩

end Journal

end Transducer
