import Mathlib.Algebra.Group.Nat.Defs

/-!
# Words of 32 bits

Addresses, lengths and counts are words. As long as a sum stays below `2 ^ 32` it
is the sum of the numbers. A word of 16 bits also counts as a signed number.
-/

namespace Bootloader.Std

variable {word other : UInt32}

theorem toNat_add_of_lt (fits : word.toNat + other.toNat < 2 ^ 32) :
    (word + other).toNat = word.toNat + other.toNat := by
  rw [UInt32.toNat_add, Nat.mod_eq_of_lt fits]

theorem toNat_add_one (fits : word.toNat + 1 < 2 ^ 32) : (word + 1).toNat = word.toNat + 1 :=
  toNat_add_of_lt fits

/-- A place in an area that does not wrap around. -/
theorem toNat_offset {count : Nat} (fits : word.toNat + count < 2 ^ 32) :
    (word + UInt32.ofNat count).toNat = word.toNat + count := by
  rw [UInt32.toNat_add, UInt32.toNat_ofNat']
  omega

/-- A word is not zero, not NULL as a pointer, when its number is positive. -/
theorem toNat_pos_iff : 0 < word.toNat ↔ word ≠ 0 := by
  rw [Nat.pos_iff_ne_zero, ne_eq, ne_eq, ← UInt32.toNat_inj, UInt32.toNat_zero]

/-- A word below a limit is not the limit. -/
theorem ne_of_toNat_lt (below : word.toNat < other.toNat) : word ≠ other := by
  rintro rfl
  exact Nat.lt_irrefl _ below

/-- A word of 16 bits as a signed number. -/
theorem toInt_toInt16 (half : UInt16) :
    half.toInt16.toInt =
      if half.toNat < 32768 then (half.toNat : Int) else half.toNat - 65536 := by
  have signed := BitVec.toInt_eq_toNat_cond half.toBitVec
  have number : half.toBitVec.toNat = half.toNat := rfl
  rw [number] at signed
  rw [show half.toInt16.toInt = half.toBitVec.toInt from rfl, signed]
  split <;> split <;> omega

/-- A signed word of 16 bits as an unsigned number. -/
theorem toNat_toUInt16 (half : Int16) :
    (half.toUInt16.toNat : Int) = if 0 ≤ half.toInt then half.toInt else half.toInt + 65536 := by
  have signed := toInt_toInt16 half.toUInt16
  have bound := half.toUInt16.toNat_lt
  rw [Int16.toInt16_toUInt16] at signed
  split at signed <;> split <;> omega

end Bootloader.Std
