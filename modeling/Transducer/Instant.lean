import Transducer.Calendar

/-!
# Instants

An instant is a point in universal time, down to the nanosecond: a day, a second
of that day and the nanoseconds within that second. Days have 86400 seconds. A
leap second has no number of its own. It prolongs the last second of its minute,
so its nanoseconds start at 1000000000. Instants lie in the years from
`firstYear` to `lastYear`.

* `Instant.le`: the chronological order.
* `Instant.elapsed`: the time from one instant to another, negative when the
  second is earlier.
* `Instant.span?`: the same as a `Span`, which cannot be negative.
-/

namespace Transducer

def Instant.firstYear : Int :=
  -262143

def Instant.lastYear : Int :=
  262142

structure Instant where
  /-- The number of the day, counted from the first of January of year 0. -/
  day : Int
  second : Nat
  nano : Nat
  second_lt : second < 86400
  nano_lt : nano < 2000000000
  leap_at_59 : 1000000000 ≤ nano → second % 60 = 59
  first_le : Calendar.daysBefore Instant.firstYear ≤ day
  day_lt : day < Calendar.daysBefore (Instant.lastYear + 1)
deriving DecidableEq

/-- A length of time. -/
structure Span where
  seconds : Nat
  nanos : Nat
  nanos_lt : nanos < 1000000000
deriving DecidableEq

def Span.ofNanos (n : Nat) : Span :=
  ⟨n / 1000000000, n % 1000000000, Nat.mod_lt _ (by decide)⟩

namespace Instant

/-- The instant with the given parts, if there is one. -/
def ofParts? (day : Int) (second nano : Nat) : Option Instant :=
  if h : (second < 86400 ∧ nano < 2000000000 ∧ (1000000000 ≤ nano → second % 60 = 59)) ∧
      Calendar.daysBefore firstYear ≤ day ∧ day < Calendar.daysBefore (lastYear + 1) then
    some ⟨day, second, nano, h.1.1, h.1.2.1, h.1.2.2, h.2.1, h.2.2⟩
  else none

/-- Midnight at the start of the year 1970. -/
def epoch : Instant :=
  ⟨Calendar.daysBefore 1970, 0, 0, by decide, by decide, by decide, by decide, by decide⟩

instance : Inhabited Instant :=
  ⟨epoch⟩

def isLeap (t : Instant) : Bool :=
  1000000000 ≤ t.nano

/-- The chronological order: a leap second comes after the 59th second of its
minute and before the next minute. -/
def le (a b : Instant) : Prop :=
  a.day < b.day ∨ a.day = b.day ∧
    (a.second < b.second ∨ a.second = b.second ∧ a.nano ≤ b.nano)

instance : LE Instant :=
  ⟨le⟩

instance (a b : Instant) : Decidable (a ≤ b) :=
  inferInstanceAs (Decidable (_ ∨ _ ∧ (_ ∨ _ ∧ _)))

/-- A leap second that lies between the two times of day counts as a second of
its own. Only the times of day are compared. The dates do not matter. -/
def leapCorrection (a b : Instant) : Int :=
  if a.second < b.second ∧ a.isLeap then 1
  else if b.second < a.second ∧ b.isLeap then -1
  else 0

/-- The difference in seconds before the nanoseconds are taken into account. -/
def elapsedSeconds (a b : Instant) : Int :=
  (b.day - a.day) * 86400 + (b.second - a.second) + leapCorrection a b

/-- The nanoseconds from `a` to `b`. -/
def elapsed (a b : Instant) : Int :=
  elapsedSeconds a b * 1000000000 + (b.nano - a.nano)

def span? (a b : Instant) : Option Span :=
  if 0 ≤ elapsed a b then some (Span.ofNanos (elapsed a b).toNat) else none

end Instant

end Transducer
