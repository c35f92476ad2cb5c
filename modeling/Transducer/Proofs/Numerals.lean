import Mathlib.Tactic.IntervalCases
import Transducer.Instant.Parser
import Transducer.Instant.Printer

/-!
# Numbers in texts

A number is written with a given count of digits. It is read back from them,
whatever comes next in the text, if the reader stops where they end.

* `ofDigits_lastDigits`: the last digits of a number are the number modulo a
  power of ten.
* `lt_pow_digitCount`, `digitCount_le`: how many digits a number needs.
* `number?_lastDigits`: a number that was written with enough digits is read
  back.
-/

namespace Transducer.Instant

open Text Written

/-! ## Digits -/

theorem digitValue_digitChar {d : Nat} (digit : d < 10) : digitValue (Nat.digitChar d) = d := by
  interval_cases d <;> decide

theorem isDigit_digitChar {d : Nat} (digit : d < 10) : (Nat.digitChar d).isDigit = true := by
  interval_cases d <;> decide

theorem isBlank_of_isDigit {c : Char} (digit : c.isDigit = true) : isBlank c = false := by
  simp only [Char.isDigit, Bool.and_eq_true, decide_eq_true_eq, ge_iff_le,
    UInt32.le_iff_toNat_le] at digit
  obtain ⟨lower, upper⟩ : 48 ≤ c.toNat ∧ c.toNat ≤ 57 := digit
  simp only [isBlank, Bool.or_eq_false_iff, Bool.and_eq_false_iff, decide_eq_false_iff_not,
    beq_eq_false_iff_ne]
  omega

theorem ofDigits_concat (digits : List Char) (c : Char) :
    ofDigits (digits ++ [c]) = 10 * ofDigits digits + digitValue c := by
  rw [ofDigits, List.foldl_append]
  rfl

theorem length_lastDigits (width n : Nat) : (lastDigits width n).length = width := by
  induction width generalizing n with
  | zero => rfl
  | succ width ih => rw [lastDigits, List.length_append, ih, List.length_singleton]

theorem isDigit_of_mem_lastDigits {width n : Nat} {c : Char} (member : c ∈ lastDigits width n) :
    c.isDigit = true := by
  induction width generalizing n with
  | zero => exact absurd member List.not_mem_nil
  | succ width ih =>
      rw [lastDigits, List.mem_append, List.mem_singleton] at member
      rcases member with earlier | rfl
      · exact ih earlier
      · exact isDigit_digitChar (Nat.mod_lt n (by decide))

theorem ofDigits_lastDigits (width n : Nat) : ofDigits (lastDigits width n) = n % 10 ^ width := by
  induction width generalizing n with
  | zero => rw [Nat.pow_zero, Nat.mod_one]; rfl
  | succ width ih =>
      rw [lastDigits, ofDigits_concat, ih, digitValue_digitChar (Nat.mod_lt n (by decide)),
        Nat.pow_succ', Nat.mod_mul, Nat.add_comm]

theorem lt_pow_digitCount (n : Nat) : n < 10 ^ digitCount n := by
  fun_induction digitCount n with
  | case1 n small => simpa using small
  | case2 n large ih =>
      rw [Nat.pow_succ]
      omega

theorem digitCount_le {n width : Nat} (wide : 0 < width) (small : n < 10 ^ width) :
    digitCount n ≤ width := by
  fun_induction digitCount n generalizing width with
  | case1 n _ => exact wide
  | case2 n large ih =>
      obtain ⟨width, rfl⟩ := Nat.exists_eq_add_one_of_ne_zero wide.ne'
      have more : 0 < width := by
        by_contra none
        obtain rfl := Nat.eq_zero_of_not_pos none
        omega
      rw [Nat.pow_succ] at small
      exact Nat.succ_le_succ (ih more (by omega))

/-- Zeros at the end multiply a number by powers of ten. -/
theorem ofDigits_append_replicate (digits : List Char) (n : Nat) :
    ofDigits (digits ++ List.replicate n '0') = ofDigits digits * 10 ^ n := by
  induction n with
  | zero => simp
  | succ n ih =>
      have zero : digitValue '0' = 0 := rfl
      rw [List.replicate_succ', ← List.append_assoc, ofDigits_concat, ih, zero, Nat.add_zero,
        Nat.mul_left_comm, Nat.pow_succ']

/-! ## Reading -/

theorem skipBlank_of_head {c : Char} (visible : isBlank c = false) (rest : List Char) :
    skipBlank (c :: rest) = c :: rest := by
  rw [skipBlank, List.dropWhile_cons_of_neg (by simp [visible])]

theorem skipBlank_digits {digits : List Char} (nonempty : digits ≠ [])
    (allDigits : ∀ c ∈ digits, c.isDigit = true) (rest : List Char) :
    skipBlank (digits ++ rest) = digits ++ rest := by
  obtain ⟨c, others, rfl⟩ := List.exists_cons_of_ne_nil nonempty
  exact skipBlank_of_head (isBlank_of_isDigit (allDigits c List.mem_cons_self)) _

/-- The text goes on with something that is not a digit, or it is at its end. -/
def NoDigit (rest : List Char) : Prop :=
  ∀ c ∈ rest.head?, c.isDigit = false

namespace NoDigit

variable {rest : List Char}

theorem takeWhile (ends : NoDigit rest) : rest.takeWhile Char.isDigit = [] := by
  cases rest with
  | nil => rfl
  | cons c others =>
      have other : c.isDigit = false := ends c rfl
      rw [List.takeWhile_cons_of_neg (by simp [other])]

theorem take (ends : NoDigit rest) (n : Nat) : NoDigit (rest.take n) := by
  cases n with
  | zero => exact nofun
  | succ n =>
      rw [NoDigit, List.head?_take]
      exact ends

end NoDigit

/-- A number is read as far as its digits go, because there are no more or
because no more are wanted. -/
theorem number?_digits {digits : List Char} (nonempty : digits ≠ [])
    (allDigits : ∀ c ∈ digits, c.isDigit = true) {width : Nat} {rest : List Char}
    (fits : digits.length ≤ width) (ends : digits.length = width ∨ NoDigit rest) :
    number? width (digits ++ rest) = some (ofDigits digits, rest) := by
  have behind : (rest.take (width - digits.length)).takeWhile Char.isDigit = [] := by
    rcases ends with full | ends
    · rw [full, Nat.sub_self]
      rfl
    · exact (ends.take _).takeWhile
  have read : ((digits ++ rest).take width).takeWhile Char.isDigit = digits := by
    rw [List.take_append, List.take_of_length_le fits, List.takeWhile_append_of_pos allDigits,
      behind, List.append_nil]
  rw [number?, read, if_neg (by simpa using nonempty), List.drop_left]

theorem lastDigits_ne_nil {width : Nat} (wide : 0 < width) (n : Nat) : lastDigits width n ≠ [] := by
  rw [← List.length_pos_iff, length_lastDigits]
  exact wide

theorem skipBlank_lastDigits {width : Nat} (wide : 0 < width) (n : Nat) (rest : List Char) :
    skipBlank (lastDigits width n ++ rest) = lastDigits width n ++ rest :=
  skipBlank_digits (lastDigits_ne_nil wide n) (fun _ => isDigit_of_mem_lastDigits) rest

/-- A number that was written with enough digits is read back. -/
theorem number?_lastDigits {width limit n : Nat} {rest : List Char} (wide : 0 < width)
    (enough : n < 10 ^ width) (fits : width ≤ limit) (ends : width = limit ∨ NoDigit rest) :
    number? limit (lastDigits width n ++ rest) = some (n, rest) := by
  rw [number?_digits (lastDigits_ne_nil wide n) (fun _ => isDigit_of_mem_lastDigits)
    (by rw [length_lastDigits]; exact fits) (by rw [length_lastDigits]; exact ends),
    ofDigits_lastDigits, Nat.mod_eq_of_lt enough]

end Transducer.Instant
