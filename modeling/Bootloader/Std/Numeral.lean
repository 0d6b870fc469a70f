import Mathlib.Data.Nat.Digits.Lemmas

/-!
# Numerals

A numeral is a list of digits with the most significant one first, as it is written and
read. `numeral` writes a number in a base, `numeralValue` reads digits in one, and
`numeralValue_eq_iff` says when two bases read the same.
-/

namespace Bootloader.Std

/-- What digits denote in a base. -/
def numeralValue (base : Nat) (digits : List Nat) : Nat := Nat.ofDigits base digits.reverse

/-- The digits of a number in a base; zero has one. -/
def numeral (base number : Nat) : List Nat :=
  if number = 0 then [0] else (Nat.digits base number).reverse

section Values

variable {base other digit : Nat} {digits : List Nat}

@[simp] theorem numeralValue_nil (base : Nat) : numeralValue base [] = 0 := rfl

/-- One more digit. -/
theorem numeralValue_concat (base : Nat) (digits : List Nat) (digit : Nat) :
    numeralValue base (digits ++ [digit]) = numeralValue base digits * base + digit := by
  rw [numeralValue, List.reverse_append, List.reverse_singleton, List.singleton_append,
    Nat.ofDigits_cons, numeralValue, Nat.mul_comm, Nat.add_comm]

theorem numeralValue_singleton (base digit : Nat) : numeralValue base [digit] = digit :=
  Nat.ofDigits_singleton

/-- Zeros in front change nothing. -/
theorem numeralValue_zeros (base count : Nat) (digits : List Nat) :
    numeralValue base (List.replicate count 0 ++ digits) = numeralValue base digits := by
  rw [numeralValue, List.reverse_append, List.reverse_replicate,
    Nat.ofDigits_append_replicate_zero, numeralValue]

theorem numeralValue_le (digits : List Nat) (smaller : base ≤ other) :
    numeralValue base digits ≤ numeralValue other digits :=
  Nat.ofDigits_monotone _ smaller

/-- In base 1 digits denote their sum. -/
theorem numeralValue_one (digits : List Nat) : numeralValue 1 digits = digits.sum := by
  rw [numeralValue, Nat.ofDigits_one, List.sum_reverse]

/-- Digits that denote a number have a sum. -/
theorem sum_pos_of_numeralValue_pos (denotes : 0 < numeralValue base digits) : 0 < digits.sum := by
  by_contra nothing
  have zeros : digits = List.replicate digits.length 0 :=
    List.eq_replicate_iff.mpr ⟨rfl, List.sum_eq_zero_iff_forall_eq_nat.mp
      (Nat.eq_zero_of_not_pos nothing)⟩
  have value := numeralValue_zeros base digits.length []
  rw [List.append_nil, ← zeros, numeralValue_nil] at value
  omega

/-- The digits of one base denote less in a smaller one, unless all but the last are zeros. -/
theorem numeralValue_eq_iff (smaller : base < other) (valid : ∀ digit ∈ digits, digit < other) :
    numeralValue base digits = numeralValue other digits ↔ numeralValue other digits < other := by
  induction digits using List.reverseRecOn with
  | nil => exact iff_of_true rfl (Nat.zero_lt_of_lt smaller)
  | append_singleton digits digit inductionHypothesis =>
      have last : digit < other := valid digit (List.mem_append_right _ List.mem_cons_self)
      have lower := numeralValue_le digits (Nat.le_of_lt smaller)
      rw [numeralValue_concat, numeralValue_concat]
      obtain zero | positive := Nat.eq_zero_or_pos (numeralValue other digits)
      · have isZero : numeralValue base digits = 0 := Nat.le_zero.mp (zero ▸ lower)
        rw [zero, isZero, Nat.zero_mul, Nat.zero_mul, Nat.zero_add]
        exact iff_of_true rfl last
      · have less : numeralValue base digits * base < numeralValue other digits * other :=
          Nat.lt_of_le_of_lt (Nat.mul_le_mul_right base lower)
            (Nat.mul_lt_mul_of_pos_left smaller positive)
        have whole : other ≤ numeralValue other digits * other := Nat.le_mul_of_pos_left _ positive
        exact iff_of_false (by omega) (by omega)

end Values

section Numerals

variable {base number : Nat}

theorem numeral_zero (base : Nat) : numeral base 0 = [0] := if_pos rfl

/-- A number of one digit. -/
theorem numeral_of_lt (small : number < base) : numeral base number = [number] := by
  by_cases zero : number = 0
  · rw [zero, numeral_zero]
  · rw [numeral, if_neg zero, Nat.digits_of_lt base number zero small]
    rfl

/-- The last digit of a number, behind those of what is left of it. -/
theorem numeral_of_le (wide : 1 < base) (large : base ≤ number) :
    numeral base number = numeral base (number / base) ++ [number % base] := by
  have quotient : number / base ≠ 0 := Nat.ne_of_gt (Nat.div_pos large (Nat.lt_of_succ_lt wide))
  have nonzero : number ≠ 0 := fun zero => quotient (zero ▸ Nat.zero_div base)
  rw [numeral, if_neg nonzero, numeral, if_neg quotient, Nat.digits_eq_cons_digits_div wide nonzero,
    List.reverse_cons]

/-- A number is what its digits denote. -/
@[simp] theorem numeralValue_numeral (base number : Nat) :
    numeralValue base (numeral base number) = number := by
  by_cases zero : number = 0
  · rw [zero, numeral_zero, numeralValue_singleton]
  · rw [numeral, if_neg zero, numeralValue, List.reverse_reverse, Nat.ofDigits_digits]

theorem numeral_lt (wide : 1 < base) : ∀ digit ∈ numeral base number, digit < base := by
  intro digit member
  by_cases zero : number = 0
  · rw [zero, numeral_zero, List.mem_singleton] at member
    omega
  · rw [numeral, if_neg zero, List.mem_reverse] at member
    exact Nat.digits_lt_base wide member

theorem numeral_ne_nil (base number : Nat) : numeral base number ≠ [] := by
  by_cases zero : number = 0
  · rw [zero, numeral_zero]
    exact List.cons_ne_nil _ _
  · rw [numeral, if_neg zero, ne_eq, List.reverse_eq_nil_iff, Nat.digits_eq_nil_iff_eq_zero]
    exact zero

/-- No number but zero has a leading zero. -/
theorem numeral_head (nonzero : number ≠ 0) : (numeral base number).head? ≠ some 0 := by
  rw [numeral, if_neg nonzero, List.head?_reverse,
    List.getLast?_eq_some_getLast (Nat.digits_ne_nil_iff_ne_zero.mpr nonzero), ne_eq,
    Option.some.injEq]
  exact Nat.getLast_digit_ne_zero base nonzero

theorem numeral_length_le {count : Nat} (wide : 1 < base) (positive : 0 < count)
    (below : number < base ^ count) : (numeral base number).length ≤ count := by
  by_cases zero : number = 0
  · rw [zero, numeral_zero]
    exact positive
  · rw [numeral, if_neg zero, List.length_reverse]
    exact (Nat.digits_length_le_iff wide number).mpr below

end Numerals

end Bootloader.Std
