import Transducer.Instant

/-!
# Writing instants

An instant is written in universal time, for example `2024-02-29T12:00:00.500Z`.
Years from 0 to 9999 have four digits. Other years have a sign and at least four
digits. The fraction of the second has no digits, three, six or nine, the fewest
that are exact. A leap second is written as the second 60.
-/

namespace Transducer.Instant

/-- The last `width` decimal digits of a number. -/
def lastDigits : Nat → Nat → List Char
  | 0, _ => []
  | width + 1, n => lastDigits width (n / 10) ++ [Nat.digitChar (n % 10)]

/-- How many decimal digits a number has. -/
def digitCount (n : Nat) : Nat :=
  if n < 10 then 1 else digitCount (n / 10) + 1

def yearChars (year : Int) : List Char :=
  let digits := lastDigits (max 4 (digitCount year.natAbs)) year.natAbs
  if 0 ≤ year ∧ year ≤ 9999 then digits
  else (if year < 0 then '-' else '+') :: digits

def fractionChars (nano : Nat) : List Char :=
  if nano = 0 then []
  else if nano % 1000000 = 0 then '.' :: lastDigits 3 (nano / 1000000)
  else if nano % 1000 = 0 then '.' :: lastDigits 6 (nano / 1000)
  else '.' :: lastDigits 9 nano

def toChars (t : Instant) : List Char :=
  let date := Calendar.Date.ofDayNumber t.day
  let second := t.second % 60 + if t.isLeap then 1 else 0
  yearChars date.year ++
    ['-'] ++ lastDigits 2 date.month ++
    ['-'] ++ lastDigits 2 date.day ++
    ['T'] ++ lastDigits 2 (t.second / 3600) ++
    [':'] ++ lastDigits 2 (t.second / 60 % 60) ++
    [':'] ++ lastDigits 2 second ++
    fractionChars (t.nano % 1000000000) ++ ['Z']

def render (t : Instant) : String :=
  String.ofList t.toChars

end Transducer.Instant
