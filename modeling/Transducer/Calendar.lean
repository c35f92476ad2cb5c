/-!
# Calendar

The proleptic Gregorian calendar. Year 0 exists, and years before it are
negative. A day is also numbered, counting from the first of January of year 0.

* `yearOf_spec`: every day lies in the year that `yearOf` gives.
* `le_yearOf_iff`: a day lies in a year or after it exactly when it does not
  come before the first day of the year.
* `Date.exists_ofDayNumber`, `Date.dayNumber_ofDayNumber`: the date of a day
  exists, and its number is that day.
* `Date.ofDayNumber_dayNumber`: no date that exists has the number of another.
-/

namespace Transducer.Calendar

-- Sums of days start from the numeral zero, whatever other structure the
-- numbers are given.
local instance (priority := 2000) noDays : Zero Nat :=
  ⟨0⟩

def isLeap (year : Int) : Bool :=
  year % 4 == 0 && (year % 100 != 0 || year % 400 == 0)

/-- The number of the first day of a year: 365 days for every year before it and
one more for every leap year among them. -/
def daysBefore (year : Int) : Int :=
  365 * year + (year + 3) / 4 - (year + 99) / 100 + (year + 399) / 400

def monthLengths (year : Int) : List Nat :=
  [31, if isLeap year then 29 else 28, 31, 30, 31, 30, 31, 31, 30, 31, 30, 31]

/-- The year of a day. The average length of a year gives an estimate, which is
off by at most one. -/
def yearOf (day : Int) : Int :=
  let guess := 400 * day / 146097
  if day < daysBefore guess then guess - 1
  else if daysBefore (guess + 1) ≤ day then guess + 1
  else guess

/-- Walks `rest` days into months of the given lengths. The result is the number
of whole months passed and the days left over. -/
def splitMonths : List Nat → Nat → Nat × Nat
  | [], rest => (0, rest)
  | length :: lengths, rest =>
      if rest < length then (0, rest)
      else
        let (months, left) := splitMonths lengths (rest - length)
        (months + 1, left)

structure Date where
  year : Int
  /-- From 1 to 12. -/
  month : Nat
  /-- From 1 on. -/
  day : Nat
deriving DecidableEq, Repr

namespace Date

def Exists (d : Date) : Prop :=
  1 ≤ d.month ∧ d.month ≤ 12 ∧ 1 ≤ d.day ∧ d.day ≤ (monthLengths d.year).getD (d.month - 1) 0

instance (d : Date) : Decidable d.Exists :=
  inferInstanceAs (Decidable (_ ∧ _ ∧ _ ∧ _))

def dayNumber (d : Date) : Int :=
  daysBefore d.year + ((monthLengths d.year).take (d.month - 1)).sum + (d.day - 1 : Nat)

def ofDayNumber (day : Int) : Date :=
  let year := yearOf day
  let (months, left) := splitMonths (monthLengths year) (day - daysBefore year).toNat
  ⟨year, months + 1, left + 1⟩

end Date

/-! ## Days and years -/

theorem daysBefore_succ (year : Int) :
    daysBefore (year + 1) = daysBefore year + if isLeap year then 366 else 365 := by
  unfold daysBefore isLeap
  split <;> rename_i h <;> simp at h <;> omega

theorem sum_monthLengths (year : Int) :
    ((monthLengths year).sum : Int) = daysBefore (year + 1) - daysBefore year := by
  have total : (monthLengths year).sum = if isLeap year then 366 else 365 := by
    cases h : isLeap year <;> simp [monthLengths, h]
  rw [total, daysBefore_succ]
  split <;> omega

theorem yearOf_spec (day : Int) :
    daysBefore (yearOf day) ≤ day ∧ day < daysBefore (yearOf day + 1) := by
  unfold yearOf daysBefore
  simp only
  split
  · simp only [Int.sub_add_cancel]
    omega
  · split <;> omega

theorem daysBefore_mono {earlier later : Int} (le : earlier ≤ later) :
    daysBefore earlier ≤ daysBefore later := by
  unfold daysBefore
  omega

/-- A day lies in a year or after it exactly when it does not come before the
year's first day. -/
theorem le_yearOf_iff {year day : Int} : year ≤ yearOf day ↔ daysBefore year ≤ day := by
  have ⟨first, last⟩ := yearOf_spec day
  constructor
  · intro le
    exact Int.le_trans (daysBefore_mono le) first
  · intro le
    by_cases before : yearOf day + 1 ≤ year
    · have := daysBefore_mono before
      omega
    · omega

/-! ## Days and dates -/

theorem splitMonths_eq (lengths : List Nat) (rest : Nat) :
    (lengths.take (splitMonths lengths rest).1).sum + (splitMonths lengths rest).2 = rest := by
  induction lengths generalizing rest with
  | nil => simp [splitMonths]
  | cons length lengths ih =>
      by_cases h : rest < length
      · simp [splitMonths, h]
      · have := ih (rest - length)
        simp [splitMonths, h]
        omega

theorem splitMonths_lt (lengths : List Nat) (rest : Nat) (h : rest < lengths.sum) :
    (splitMonths lengths rest).1 < lengths.length ∧
      (splitMonths lengths rest).2 < lengths.getD (splitMonths lengths rest).1 0 := by
  induction lengths generalizing rest with
  | nil => simp at h
  | cons length lengths ih =>
      by_cases hr : rest < length
      · simp [splitMonths, hr]
      · have := ih (rest - length) (by simp at h; omega)
        simpa [splitMonths, hr] using this

/-- Days that lie in a month of the list are found there. -/
theorem splitMonths_take (lengths : List Nat) (months left : Nat)
    (h : left < lengths.getD months 0) :
    splitMonths lengths ((lengths.take months).sum + left) = (months, left) := by
  induction lengths generalizing months with
  | nil => simp at h
  | cons length lengths ih =>
      cases months with
      | zero =>
          rw [List.getD_cons_zero] at h
          simp [splitMonths, h]
      | succ months =>
          rw [List.getD_cons_succ] at h
          have later : ¬length + (lengths.take months).sum + left < length := by omega
          have rest : length + (lengths.take months).sum + left - length =
            (lengths.take months).sum + left := by omega
          simp only [List.take_succ_cons, List.sum_cons, splitMonths, later, if_false, rest,
            ih months h]

theorem sum_take_lt (lengths : List Nat) (months left : Nat)
    (h : left < lengths.getD months 0) :
    (lengths.take months).sum + left < lengths.sum := by
  induction lengths generalizing months with
  | nil => simp at h
  | cons length lengths ih =>
      cases months with
      | zero =>
          rw [List.getD_cons_zero] at h
          simp only [List.take_zero, List.sum_nil, List.sum_cons]
          omega
      | succ months =>
          rw [List.getD_cons_succ] at h
          have := ih months h
          simp only [List.take_succ_cons, List.sum_cons]
          omega

namespace Date

theorem dayNumber_ofDayNumber (day : Int) : (ofDayNumber day).dayNumber = day := by
  have first := (yearOf_spec day).1
  have split := splitMonths_eq (monthLengths (yearOf day)) (day - daysBefore (yearOf day)).toNat
  simp only [dayNumber, ofDayNumber, Nat.add_sub_cancel]
  omega

theorem exists_ofDayNumber (day : Int) : (ofDayNumber day).Exists := by
  have ⟨first, last⟩ := yearOf_spec day
  have total := sum_monthLengths (yearOf day)
  have ⟨month, left⟩ := splitMonths_lt (monthLengths (yearOf day))
    (day - daysBefore (yearOf day)).toNat (by omega)
  simp only [monthLengths, List.length_cons, List.length_nil] at month
  simp only [Exists, ofDayNumber, Nat.add_sub_cancel]
  exact ⟨by omega, by simp only [monthLengths] at *; omega, by omega, left⟩

theorem yearOf_dayNumber {d : Date} (exist : d.Exists) : yearOf d.dayNumber = d.year := by
  obtain ⟨_, _, _, day⟩ := exist
  have within := sum_take_lt (monthLengths d.year) (d.month - 1) (d.day - 1) (by omega)
  have total := sum_monthLengths d.year
  have first : d.year ≤ yearOf d.dayNumber := le_yearOf_iff.mpr (by rw [dayNumber]; omega)
  have last : ¬d.year + 1 ≤ yearOf d.dayNumber := by
    rw [le_yearOf_iff, dayNumber]
    omega
  omega

theorem ofDayNumber_dayNumber {d : Date} (exist : d.Exists) : ofDayNumber d.dayNumber = d := by
  have year := yearOf_dayNumber exist
  obtain ⟨firstMonth, _, firstDay, last⟩ := exist
  have found := splitMonths_take (monthLengths d.year) (d.month - 1) (d.day - 1) (by omega)
  have inYear : (d.dayNumber - daysBefore d.year).toNat =
      ((monthLengths d.year).take (d.month - 1)).sum + (d.day - 1) := by
    rw [dayNumber]
    omega
  simp only [ofDayNumber, year, inYear, found, Nat.sub_add_cancel firstMonth,
    Nat.sub_add_cancel firstDay]

theorem Exists.day_le {d : Date} (exist : d.Exists) : d.day ≤ 31 := by
  obtain ⟨_, month, _, day⟩ := exist
  have short : ∀ length ∈ monthLengths d.year, length ≤ 31 := by
    simp only [monthLengths, List.forall_mem_cons]
    split <;> decide
  have listed : d.month - 1 < (monthLengths d.year).length := by
    simp only [monthLengths, List.length_cons, List.length_nil]
    omega
  rw [List.getD_eq_getElem?_getD, List.getElem?_eq_getElem listed, Option.getD_some] at day
  exact Nat.le_trans day (short _ (List.getElem_mem _))

end Date

end Transducer.Calendar
