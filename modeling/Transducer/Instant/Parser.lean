import Transducer.Instant

/-!
# Reading instants

The written form is a date, a time of day and an offset from universal time:

    year - month - day (T | t | space) hour : minute : second [. digits] offset

Blanks may stand before every number, before every `-` and `:`, around the
offset and at the end.

* The year has one to four digits, or a sign and any number of digits.
* The other numbers have one or two digits.
* Of the digits after the point the first nine count.
* The offset is `Z`, `UTC` in either case, or a sign, two digits of hours, any
  run of colons and blanks and two digits of minutes. The sign may be a hyphen
  or a minus sign.

`Written.ofChars?` reads the numbers, and `Written.instant?` decides whether
they name an instant.
-/

namespace Transducer.Text

/-- The 25 characters with the Unicode property `White_Space`. -/
def isBlank (c : Char) : Bool :=
  let n := c.toNat
  (0x09 ≤ n && n ≤ 0x0d) || n == 0x20 || n == 0x85 || n == 0xa0 || n == 0x1680 ||
    (0x2000 ≤ n && n ≤ 0x200a) || n == 0x2028 || n == 0x2029 || n == 0x202f || n == 0x205f ||
    n == 0x3000

def skipBlank (s : List Char) : List Char :=
  s.dropWhile isBlank

end Transducer.Text

namespace Transducer.Instant

open Calendar Text

/-- The numbers of a written instant. -/
structure Written where
  date : Date
  hour : Nat
  minute : Nat
  second : Nat
  nano : Nat
  /-- How many minutes the local time is ahead of universal time. -/
  offset : Int
deriving DecidableEq, Repr

namespace Written

/-! ## Numbers -/

def digitValue (c : Char) : Nat :=
  c.toNat - '0'.toNat

def ofDigits (digits : List Char) : Nat :=
  digits.foldl (fun n c => 10 * n + digitValue c) 0

/-- A number of at least one and at most `width` digits. -/
def number? (width : Nat) (s : List Char) : Option (Nat × List Char) :=
  let digits := (s.take width).takeWhile Char.isDigit
  if digits.isEmpty then none else some (ofDigits digits, s.drop digits.length)

def year? (s : List Char) : Option (Int × List Char) :=
  match s with
  | '-' :: rest => (number? rest.length rest).map fun (n, rest) => (-n, rest)
  | '+' :: rest => (number? rest.length rest).map fun (n, rest) => (n, rest)
  | s => (number? 4 s).map fun (n, rest) => (n, rest)

/-- The nanoseconds after a decimal point. Without a point there are none, and
nothing is read. -/
def fraction? (s : List Char) : Option (Nat × List Char) :=
  match s with
  | '.' :: rest =>
      let digits := rest.takeWhile Char.isDigit
      if digits.isEmpty then none
      else
        let nanos := (digits ++ List.replicate 9 '0').take 9
        some (ofDigits nanos, rest.drop digits.length)
  | s => some (0, s)

/-! ## Marks -/

def mark? (allowed : List Char) : List Char → Option (List Char)
  | [] => none
  | c :: rest => if c ∈ allowed then some rest else none

/-! ## Offsets -/

def twoDigits? : List Char → Option (Nat × List Char)
  | a :: b :: rest =>
      if a.isDigit && b.isDigit then some (ofDigits [a, b], rest) else none
  | _ => none

/-- The hours and minutes after the sign of an offset, in minutes. -/
def distance? (s : List Char) : Option (Nat × List Char) := do
  let (hours, rest) ← twoDigits? s
  let (minutes, rest) ← twoDigits? (rest.dropWhile fun c => c == ':' || isBlank c)
  guard (minutes < 60)
  return (60 * hours + minutes, rest)

def offset? (s : List Char) : Option (Int × List Char) :=
  match s with
  | 'Z' :: rest | 'z' :: rest => some (0, rest)
  | '+' :: rest => (distance? rest).map fun (n, rest) => (n, rest)
  | '-' :: rest | '\u2212' :: rest => (distance? rest).map fun (n, rest) => (-n, rest)
  | s =>
      if (s.take 3).map Char.toUpper = ['U', 'T', 'C'] then some (0, s.drop 3) else none

/-! ## The whole form -/

def ofChars? (s : List Char) : Option Written := do
  let (year, s) ← year? (skipBlank s)
  let s ← mark? ['-'] (skipBlank s)
  let (month, s) ← number? 2 (skipBlank s)
  let s ← mark? ['-'] (skipBlank s)
  let (day, s) ← number? 2 (skipBlank s)
  let s ← mark? ['T', 't', ' '] s
  let (hour, s) ← number? 2 (skipBlank s)
  let s ← mark? [':'] (skipBlank s)
  let (minute, s) ← number? 2 (skipBlank s)
  let s ← mark? [':'] (skipBlank s)
  let (second, s) ← number? 2 (skipBlank s)
  let (nano, s) ← fraction? s
  let (offset, s) ← offset? (skipBlank s)
  guard (skipBlank s = [])
  return ⟨⟨year, month, day⟩, hour, minute, second, nano, offset⟩

/-- The local date must exist and lie in the supported years, and so must the
instant itself. The second 60 is the leap second of any minute. -/
def instant? (w : Written) : Option Instant := do
  guard (w.date.Exists ∧ firstYear ≤ w.date.year ∧ w.date.year ≤ lastYear)
  guard (w.hour < 24 ∧ w.minute < 60 ∧ w.second ≤ 60)
  guard (-1440 < w.offset ∧ w.offset < 1440)
  let (second, nano) := if w.second = 60 then (59, w.nano + 1000000000) else (w.second, w.nano)
  let time := (w.hour * 3600 + w.minute * 60 + second : Nat) - w.offset * 60
  ofParts? (w.date.dayNumber + time / 86400) (time % 86400).toNat nano

end Written

def parse? (s : String) : Option Instant :=
  (Written.ofChars? s.toList).bind Written.instant?

end Transducer.Instant
