import Transducer.Instant.Parser
import Transducer.Journal
import Transducer.Turnstile.Rules

/-!
# Spans between instants

The time from one instant to another is put together from the days between the
two dates and the seconds between the two times of day. A leap second counts for
a second of its own only if it lies between the times of day, so a leap second
at the end of a day is not counted on the way to an earlier time of a later day.

* `Instant.StraddlesMidnight`: the instants between which the time comes out
  negative, although the second is the later one.
* `Instant.elapsed_nonneg_iff`: it does so for these instants only.
* `Journal.forward_duration_exists_iff`: a journal whose last move is not dated
  before the first has a duration, unless the two straddle midnight.
* `Journal.span_over_leap_midnight_lost`: there are such journals.
-/

namespace Transducer

namespace Instant

variable {a b : Instant}

/-- The first instant lies in a leap second at the end of a day and the second
one in the first second of the next day, and the fraction of the second is
smaller in the second one. -/
def StraddlesMidnight (a b : Instant) : Prop :=
  a.second = 86399 ∧ b.day = a.day + 1 ∧ b.second = 0 ∧ b.nano + 1000000000 < a.nano

instance (a b : Instant) : Decidable (a.StraddlesMidnight b) :=
  inferInstanceAs (Decidable (_ ∧ _ ∧ _ ∧ _))

/-! ## The leap second between two times of day -/

theorem isLeap_iff (t : Instant) : t.isLeap = true ↔ 1000000000 ≤ t.nano :=
  decide_eq_true_iff

theorem leapCorrection_of_lt (earlier : a.second < b.second) :
    leapCorrection a b = if a.isLeap then 1 else 0 := by
  simp [leapCorrection, earlier, Nat.lt_asymm earlier]

theorem leapCorrection_of_eq (same : a.second = b.second) : leapCorrection a b = 0 := by
  simp [leapCorrection, same]

theorem leapCorrection_of_gt (later : b.second < a.second) :
    leapCorrection a b = if b.isLeap then -1 else 0 := by
  simp [leapCorrection, later, Nat.lt_asymm later]

/-! ## Forward spans -/

/-- If the time of day is later too, there is no way to go below zero: a leap
second that is under way is counted. -/
theorem elapsed_nonneg_of_second_lt (day : a.day ≤ b.day) (earlier : a.second < b.second) :
    0 ≤ elapsed a b := by
  have nanoA := a.nano_lt
  rw [elapsed, elapsedSeconds, leapCorrection_of_lt earlier]
  by_cases leap : a.isLeap = true
  · rw [if_pos leap]
    omega
  · rw [if_neg leap]
    rw [isLeap_iff] at leap
    omega

theorem elapsed_nonneg_of_second_eq (forward : a ≤ b) (same : a.second = b.second) :
    0 ≤ elapsed a b := by
  have nanoA := a.nano_lt
  rw [elapsed, elapsedSeconds, leapCorrection_of_eq same]
  rcases forward with day | ⟨day, second | ⟨_, nano⟩⟩
  · omega
  · omega
  · omega

/-- An earlier time of a later day. The leap second under way in the first
instant is not counted here. -/
theorem elapsed_nonneg_iff_of_second_gt (day : a.day < b.day) (later : b.second < a.second) :
    0 ≤ elapsed a b ↔ ¬ a.StraddlesMidnight b := by
  have secondA := a.second_lt
  have nanoA := a.nano_lt
  have minute := b.leap_at_59
  rw [elapsed, elapsedSeconds, leapCorrection_of_gt later, StraddlesMidnight]
  by_cases leap : b.isLeap = true
  · -- A leap second ends a minute, so most of a minute has passed since midnight.
    rw [if_pos leap]
    rw [isLeap_iff] at leap
    omega
  · rw [if_neg leap]
    rw [isLeap_iff] at leap
    omega

theorem elapsed_nonneg_iff (forward : a ≤ b) : 0 ≤ elapsed a b ↔ ¬ a.StraddlesMidnight b := by
  have day : a.day ≤ b.day := by
    rcases forward with day | ⟨day, _⟩
    · exact Int.le_of_lt day
    · exact Int.le_of_eq day
  rcases Nat.lt_trichotomy a.second b.second with earlier | same | later
  · refine iff_of_true (elapsed_nonneg_of_second_lt day earlier) ?_
    rintro ⟨_, _, midnight, _⟩
    rw [midnight] at earlier
    contradiction
  · refine iff_of_true (elapsed_nonneg_of_second_eq forward same) ?_
    rintro ⟨lastSecond, _, midnight, _⟩
    rw [lastSecond, midnight] at same
    contradiction
  · have day : a.day < b.day := by
      rcases forward with day | ⟨_, earlier | ⟨same, _⟩⟩
      · exact day
      · exact absurd earlier (Nat.lt_asymm later)
      · exact absurd same (Nat.ne_of_gt later)
    exact elapsed_nonneg_iff_of_second_gt day later

theorem isSome_span?_iff (a b : Instant) : (a.span? b).isSome ↔ 0 ≤ elapsed a b := by
  unfold span?
  split
  · rename_i forward
    simpa using forward
  · rename_i backward
    simpa using backward

end Instant

namespace Journal

variable {S E : Type}

/-- Only the first and the last move count. -/
theorem duration?_eq_span? {j : Journal S E} {first last : Move S E}
    (head : j.toList.head? = some first) (tail : j.toList.getLast? = some last) :
    j.duration? = first.time.span? last.time := by
  rw [toList, List.head?_eq_getElem?, Array.getElem?_toList] at head
  rw [toList, Array.getLast?_toList] at tail
  rw [duration?, head, tail]
  rfl

/-- A journal whose last move is not dated before the first has a duration, with
one exception: if the first move is dated in a leap second at the end of a day
and the last one in the first second of the next day, with a smaller fraction of
a second. -/
theorem forward_duration_exists_iff (j : Journal S E) (first last : Move S E)
    (head : j.toList.head? = some first) (tail : j.toList.getLast? = some last)
    (forward : first.time ≤ last.time) :
    j.duration?.isSome ↔ ¬ first.time.StraddlesMidnight last.time := by
  rw [duration?_eq_span? head tail, Instant.isSome_span?_iff, Instant.elapsed_nonneg_iff forward]

/-- Two coins unlock the turnstile, each at its time. -/
def twoCoins (first second : Instant) : Journal Turnstile.State Turnstile.Event :=
  ⟨#[⟨.locked0, .locked1, .coin, first⟩, ⟨.locked1, .unlocked, .coin, second⟩]⟩

/-- From the middle of the leap second at the end of 2016 to the middle of the
first second of 2017 there is a duration. -/
theorem coins_over_new_year_have_duration :
    ∃ first second : Instant,
      Instant.parse? "2016-12-31T23:59:60.5Z" = some first ∧
      Instant.parse? "2017-01-01T00:00:00.5Z" = some second ∧
      first ≤ second ∧ (twoCoins first second).duration?.isSome := by
  refine ⟨⟨Calendar.daysBefore 2017 - 1, 86399, 1500000000, by decide, by decide, by decide,
      by decide, by decide⟩,
    ⟨Calendar.daysBefore 2017, 0, 500000000, by decide, by decide, by decide, by decide, by decide⟩,
    by decide +kernel, by decide +kernel, by decide, ?_⟩
  exact (forward_duration_exists_iff (twoCoins _ _) _ _ rfl rfl (by decide)).mpr (by decide)

/-- From the middle of the leap second to the start of 2017 there is none,
although the year starts later. -/
theorem span_over_leap_midnight_lost :
    ∃ first second : Instant,
      Instant.parse? "2016-12-31T23:59:60.5Z" = some first ∧
      Instant.parse? "2017-01-01T00:00:00Z" = some second ∧
      first ≤ second ∧ (twoCoins first second).duration? = none :=
  ⟨⟨Calendar.daysBefore 2017 - 1, 86399, 1500000000, by decide, by decide, by decide, by decide,
      by decide⟩,
    ⟨Calendar.daysBefore 2017, 0, 0, by decide, by decide, by decide, by decide, by decide⟩,
    by decide +kernel, by decide +kernel, by decide, rfl⟩

end Journal

end Transducer
