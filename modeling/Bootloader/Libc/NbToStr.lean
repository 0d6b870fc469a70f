/-!
# Numbers to strings

The two conversions write their digits from the least significant one and turn them
around. What they leave in the caller's buffer, up to the terminator, is a list.
-/

namespace Bootloader.Libc

/-- The bases the conversions assert. -/
abbrev Base : Type := { base : UInt64 // 2 ≤ base ∧ base ≤ 16 }

/-- Base 10. -/
def decimal : Base := ⟨10, by decide⟩

/-- Base 16. -/
def hexadecimal : Base := ⟨16, by decide⟩

/-- `'-'`. -/
def minus : UInt8 := 0x2D

/-- The character of a digit: seven places lie between `'9'` and `'A'`. -/
def digit (remaining : UInt64) : UInt8 :=
  let remaining := remaining + 0x30
  (if remaining > 0x39 then remaining + 7 else remaining).toUInt8

/-- The loop of `uinttostring`: the digits from the least significant one on. -/
def digitsUp (base : Base) (nb : UInt64) : List UInt8 :=
  let quotient := nb / base
  if quotient = 0 then [digit (nb % base)]
  else digit (nb % base) :: digitsUp base quotient
termination_by nb.toNat
decreasing_by
  rename_i nonzero
  have two : 2 ≤ base.val.toNat := UInt64.le_iff_toNat_le.mp base.property.1
  have quotient : (nb / base.val).toNat = nb.toNat / base.val.toNat := UInt64.toNat_div nb base
  have positive : 0 < nb.toNat := by
    apply Nat.pos_of_ne_zero
    intro zero
    apply nonzero
    apply UInt64.toNat_inj.mp
    rw [quotient, zero, Nat.zero_div, UInt64.toNat_zero]
  rw [quotient]
  exact Nat.div_lt_self positive two

/-- `uinttostring`. -/
def uinttostring (nb : UInt64) (base : Base) : List UInt8 := (digitsUp base nb).reverse

/-- `inttostring`: the negation of the least number is that number again. -/
def inttostring (nb : Int64) (base : Base) : List UInt8 :=
  if nb < 0 then minus :: uinttostring (-nb).toUInt64 base else uinttostring nb.toUInt64 base

example : uinttostring 0xB800 hexadecimal = [0x42, 0x38, 0x30, 0x30] := by decide +kernel

end Bootloader.Libc
