import Transducer.Proofs.Numerals

/-!
# Instants read back

Writing and reading take different ways. The fraction is written with as few
digits as are exact and read with up to nine, a year has a sign or has none, and
a leap second is the second 60 in a text and a long second 59 in an instant.
Still a text that was written is read as the instant it was written from.

* `year?_yearChars`, `fraction?_fractionChars`: years and fractions are read
  back where they end.
* `written`: the numbers in the text of an instant. `ofChars?_toChars` finds
  them there, and by `instant?_written` they name the instant.
* `parse?_render`: every instant is read back from its text.
* `exists_written`: every universal time of the supported years is the time of
  an instant.
-/

namespace Transducer.Instant

open Calendar Text Written

/-! ## Years -/

/-- A year that does not begin with a sign has four digits at most. -/
theorem year?_of_isDigit {c : Char} (digit : c.isDigit = true) (rest : List Char) :
    year? (c :: rest) = (number? 4 (c :: rest)).map fun (n, rest) => ((n : Int), rest) := by
  unfold year?
  split
  · rename_i equal
    cases equal
    contradiction
  · rename_i equal
    cases equal
    contradiction
  · rfl

theorem year?_yearChars (year : Int) (rest : List Char) :
    year? (yearChars year ++ '-' :: rest) = some (year, '-' :: rest) := by
  have ends : NoDigit ('-' :: rest) := by
    rintro c ⟨⟩
    rfl
  have wide : 0 < max 4 (digitCount year.natAbs) := by omega
  have enough : year.natAbs < 10 ^ max 4 (digitCount year.natAbs) :=
    (lt_pow_digitCount _).trans_le (Nat.pow_le_pow_right (by decide) (le_max_right _ _))
  unfold yearChars
  simp only
  split
  · rename_i plain
    have count : max 4 (digitCount year.natAbs) = 4 :=
      max_eq_left (digitCount_le (by decide) (by omega))
    rw [count] at enough ⊢
    have read : number? 4 (lastDigits 4 year.natAbs ++ '-' :: rest) =
        some (year.natAbs, '-' :: rest) :=
      number?_lastDigits (by decide) enough le_rfl (.inl rfl)
    obtain ⟨c, others, digits⟩ := List.exists_cons_of_ne_nil
      (lastDigits_ne_nil (by decide : 0 < 4) year.natAbs)
    have first : c ∈ lastDigits 4 year.natAbs := by
      rw [digits]
      exact List.mem_cons_self
    have digit := isDigit_of_mem_lastDigits first
    rw [digits, List.cons_append] at read ⊢
    rw [year?_of_isDigit digit, read]
    simp only [Option.map_some, Option.some.injEq, Prod.mk.injEq, and_true]
    omega
  · have read : number?
        (lastDigits (max 4 (digitCount year.natAbs)) year.natAbs ++ '-' :: rest).length
        (lastDigits (max 4 (digitCount year.natAbs)) year.natAbs ++ '-' :: rest) =
          some (year.natAbs, '-' :: rest) :=
      number?_lastDigits wide enough (by simp [length_lastDigits]) (.inr ends)
    by_cases negative : year < 0
    · rw [if_pos negative, List.cons_append, year?, read]
      simp only [Option.map_some, Option.some.injEq, Prod.mk.injEq, and_true]
      omega
    · rw [if_neg negative, List.cons_append, year?, read]
      simp only [Option.map_some, Option.some.injEq, Prod.mk.injEq, and_true]
      omega

theorem skipBlank_yearChars (year : Int) (rest : List Char) :
    skipBlank (yearChars year ++ rest) = yearChars year ++ rest := by
  unfold yearChars
  simp only
  split
  · exact skipBlank_lastDigits (by omega) _ rest
  · split
    · exact skipBlank_of_head rfl _
    · exact skipBlank_of_head rfl _

/-! ## Fractions -/

/-- Nanoseconds that end in zeros are read back from the digits before them. -/
theorem fraction?_lastDigits {width nano : Nat} {rest : List Char} (wide : 0 < width)
    (narrow : width ≤ 9) (small : nano < 10 ^ 9) (zeros : nano % 10 ^ (9 - width) = 0)
    (ends : NoDigit rest) :
    fraction? ('.' :: (lastDigits width (nano / 10 ^ (9 - width)) ++ rest)) =
      some (nano, rest) := by
  have enough : nano / 10 ^ (9 - width) < 10 ^ width := by
    apply Nat.div_lt_of_lt_mul
    rw [← Nat.pow_add, Nat.sub_add_cancel narrow]
    exact small
  generalize count : nano / 10 ^ (9 - width) = n at enough ⊢
  have read : (lastDigits width n ++ rest).takeWhile Char.isDigit = lastDigits width n := by
    rw [List.takeWhile_append_of_pos fun _ => isDigit_of_mem_lastDigits, ends.takeWhile,
      List.append_nil]
  have padded : (lastDigits width n ++ List.replicate 9 '0').take 9 =
      lastDigits width n ++ List.replicate (9 - width) '0' := by
    rw [List.take_append, List.take_of_length_le (by rw [length_lastDigits]; exact narrow),
      length_lastDigits, List.take_replicate, min_eq_left (Nat.sub_le 9 width)]
  have value : n * 10 ^ (9 - width) = nano := by
    rw [← count]
    exact Nat.div_mul_cancel (Nat.dvd_of_mod_eq_zero zeros)
  rw [fraction?]
  simp only [read, padded]
  rw [if_neg (by simpa using lastDigits_ne_nil wide n), ofDigits_append_replicate,
    ofDigits_lastDigits, Nat.mod_eq_of_lt enough, List.drop_left, value]

theorem fraction?_fractionChars {nano : Nat} (small : nano < 1000000000) (rest : List Char) :
    fraction? (fractionChars nano ++ 'Z' :: rest) = some (nano, 'Z' :: rest) := by
  have ends : NoDigit ('Z' :: rest) := by
    rintro c ⟨⟩
    rfl
  unfold fractionChars
  split
  · rename_i none
    rw [none]
    rfl
  · split
    · rename_i millis
      exact fraction?_lastDigits (by decide) (by decide) small millis ends
    · split
      · rename_i micros
        exact fraction?_lastDigits (by decide) (by decide) small micros ends
      · have nanos := fraction?_lastDigits (by decide) le_rfl small (Nat.mod_one nano) ends
        rw [Nat.sub_self, Nat.pow_zero, Nat.div_one] at nanos
        exact nanos

/-! ## The whole form -/

theorem mark?_skipBlank {c : Char} {allowed : List Char} (member : c ∈ allowed)
    (visible : isBlank c = false) (rest : List Char) :
    mark? allowed (skipBlank (c :: rest)) = some rest := by
  rw [skipBlank_of_head visible, mark?, if_pos member]

theorem number?_two_digits {n : Nat} (small : n < 100) (rest : List Char) :
    number? 2 (skipBlank (lastDigits 2 n ++ rest)) = some (n, rest) := by
  rw [skipBlank_lastDigits (by decide)]
  exact number?_lastDigits (by decide) small le_rfl (.inl rfl)

/-- The numbers with which an instant is written. -/
def written (t : Instant) : Written where
  date := .ofDayNumber t.day
  hour := t.second / 3600
  minute := t.second / 60 % 60
  second := t.second % 60 + if t.isLeap then 1 else 0
  nano := t.nano % 1000000000
  offset := 0

/-- A day of the supported years and a time of that day, both universal. Any
minute may have a second 60. -/
structure Written.Universal (w : Written) : Prop where
  date : w.date.Exists
  first : firstYear ≤ w.date.year
  last : w.date.year ≤ lastYear
  hour : w.hour < 24
  minute : w.minute < 60
  second : w.second ≤ 60
  nano : w.nano < 1000000000
  offset : w.offset = 0

theorem universal_written (t : Instant) : t.written.Universal where
  date := Date.exists_ofDayNumber t.day
  first := le_yearOf_iff.mpr t.first_le
  last := by
    show yearOf t.day ≤ lastYear
    have ends := t.day_lt
    rw [← not_le, ← le_yearOf_iff] at ends
    omega
  hour := Nat.div_lt_of_lt_mul t.second_lt
  minute := Nat.mod_lt _ (by decide)
  second := by
    show (t.second % 60 + if t.isLeap then 1 else 0) ≤ 60
    split <;> omega
  nano := Nat.mod_lt _ (by decide)
  offset := rfl

theorem ofChars?_toChars (t : Instant) : Written.ofChars? t.toChars = some t.written := by
  have universal := t.universal_written
  have month := universal.date.2.1
  have day := universal.date.day_le
  have hyphen := mark?_skipBlank (List.mem_singleton.mpr (rfl : '-' = '-')) rfl
  have colon := mark?_skipBlank (List.mem_singleton.mpr (rfl : ':' = ':')) rfl
  simp only [toChars, List.append_assoc, List.cons_append, List.nil_append]
  rw [Written.ofChars?, skipBlank_yearChars]
  -- The parts of the text are read one after the other.
  refine Option.bind_eq_some_iff.mpr ⟨_, year?_yearChars _ _, ?_⟩
  refine Option.bind_eq_some_iff.mpr ⟨_, hyphen _, ?_⟩
  refine Option.bind_eq_some_iff.mpr ⟨_, number?_two_digits (month.trans_lt (by decide)) _, ?_⟩
  refine Option.bind_eq_some_iff.mpr ⟨_, hyphen _, ?_⟩
  refine Option.bind_eq_some_iff.mpr ⟨_, number?_two_digits (day.trans_lt (by decide)) _, ?_⟩
  refine Option.bind_eq_some_iff.mpr ⟨_, rfl, ?_⟩
  refine Option.bind_eq_some_iff.mpr
    ⟨_, number?_two_digits (universal.hour.trans (by decide)) _, ?_⟩
  refine Option.bind_eq_some_iff.mpr ⟨_, colon _, ?_⟩
  refine Option.bind_eq_some_iff.mpr
    ⟨_, number?_two_digits (universal.minute.trans (by decide)) _, ?_⟩
  refine Option.bind_eq_some_iff.mpr ⟨_, colon _, ?_⟩
  refine Option.bind_eq_some_iff.mpr
    ⟨_, number?_two_digits (universal.second.trans_lt (by decide)) _, ?_⟩
  refine Option.bind_eq_some_iff.mpr ⟨_, fraction?_fractionChars universal.nano _, ?_⟩
  rfl

/-! ## The instant itself -/

theorem ofParts?_parts (t : Instant) : ofParts? t.day t.second t.nano = some t :=
  dif_pos ⟨⟨t.second_lt, t.nano_lt, t.leap_at_59⟩, t.first_le, t.day_lt⟩

/-- The second 60 goes back to the second before it, and its nanoseconds start
where those of that second end. -/
theorem clock_written (t : Instant) :
    (if t.written.second = 60 then (59, t.written.nano + 1000000000)
      else (t.written.second, t.written.nano)) = (t.second % 60, t.nano) := by
  have nano := t.nano_lt
  by_cases leap : 1000000000 ≤ t.nano
  · have second := t.leap_at_59 leap
    have late : t.written.second = 60 := by simp [written, isLeap, leap, second]
    rw [if_pos late, second, written]
    simp only [Prod.mk.injEq, true_and]
    omega
  · have second : t.written.second = t.second % 60 := by simp [written, isLeap, leap]
    have plain : t.written.second ≠ 60 := by omega
    rw [if_neg plain, second, written]
    simp only [Prod.mk.injEq, true_and]
    omega

theorem instant?_written (t : Instant) : t.written.instant? = some t := by
  have ⟨date, first, last, hour, minute, second, _, offset⟩ := t.universal_written
  have inDay := t.second_lt
  rw [instant?]
  refine Option.bind_eq_some_iff.mpr ⟨(), if_pos ⟨date, first, last⟩, ?_⟩
  refine Option.bind_eq_some_iff.mpr ⟨(), if_pos ⟨hour, minute, second⟩, ?_⟩
  refine Option.bind_eq_some_iff.mpr ⟨(), if_pos (by rw [offset]; decide), ?_⟩
  rw [clock_written]
  have day : t.written.date.dayNumber = t.day := Date.dayNumber_ofDayNumber t.day
  have time : ((t.written.hour * 3600 + t.written.minute * 60 + t.second % 60 : Nat) : Int) -
      t.written.offset * 60 = t.second := by
    simp only [written]
    omega
  have within : (t.second : Int) / 86400 = 0 ∧ ((t.second : Int) % 86400).toNat = t.second := by
    omega
  simp only [day, time, within, Int.add_zero]
  exact ofParts?_parts t

theorem parse?_render (t : Instant) : parse? t.render = some t := by
  rw [parse?, render, String.toList_ofList, ofChars?_toChars, Option.bind_some, instant?_written]

/-! ## Universal times -/

/-- Every universal time of the supported years is an instant, the seconds 60
among them. -/
theorem exists_written {w : Written} (universal : w.Universal) : ∃ t : Instant, t.written = w := by
  obtain ⟨date, hour, minute, second, nano, offset⟩ := w
  have exist : date.Exists := universal.date
  have first : firstYear ≤ date.year := universal.first
  have last : date.year ≤ lastYear := universal.last
  have inDay : hour < 24 := universal.hour
  have inHour : minute < 60 := universal.minute
  have inMinute : second ≤ 60 := universal.second
  have inSecond : nano < 1000000000 := universal.nano
  have offset : offset = 0 := universal.offset
  have begins : daysBefore firstYear ≤ date.dayNumber := by
    rw [← le_yearOf_iff, Date.yearOf_dayNumber exist]
    exact first
  have ends : date.dayNumber < daysBefore (lastYear + 1) := by
    rw [← not_le, ← le_yearOf_iff, Date.yearOf_dayNumber exist]
    omega
  by_cases leap : second = 60
  · refine ⟨⟨date.dayNumber, hour * 3600 + minute * 60 + 59, nano + 1000000000, by omega, by omega,
      by omega, begins, ends⟩, ?_⟩
    simp only [written, isLeap, Nat.le_add_left, decide_true, if_true,
      Date.ofDayNumber_dayNumber exist, Written.mk.injEq, true_and]
    omega
  · refine ⟨⟨date.dayNumber, hour * 3600 + minute * 60 + second, nano, by omega, by omega,
      by omega, begins, ends⟩, ?_⟩
    simp only [written, isLeap, Nat.not_le.mpr inSecond, decide_false, Bool.false_eq_true, if_false,
      Date.ofDayNumber_dayNumber exist, Written.mk.injEq, true_and]
    omega

end Transducer.Instant
