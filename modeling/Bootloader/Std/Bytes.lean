import Bootloader.Std.Memory

/-!
# Bytes that memory holds

`Holds` says that a row of bytes stands at an address. It splits over `++`, and the bytes of
a double word are read back as the number.
-/

namespace Bootloader.Std

/-- The bytes of a double word, least significant first. -/
def doubleWord (value : UInt32) : List UInt8 :=
  [value.toUInt8, (value >>> 8).toUInt8, (value >>> 16).toUInt8, (value >>> 24).toUInt8]

namespace Memory

/-- The bytes that stand at an address. -/
def Holds (memory : Memory) (address : Nat) (bytes : List UInt8) : Prop :=
  memory.loadBytes address bytes.length = bytes

variable {memory other : Memory} {address target : Nat} {bytes first second : List UInt8}

theorem length_loadBytes {count : Nat} : (memory.loadBytes address count).length = count := by
  induction count generalizing address with
  | zero => rfl
  | succ count inductionHypothesis => rw [loadBytes, List.length_cons, inductionHypothesis]

theorem holds_append :
    memory.Holds address (first ++ second) ↔
      memory.Holds address first ∧ memory.Holds (address + first.length) second := by
  rw [Holds, List.length_append, loadBytes_append]
  constructor
  · intro whole
    exact List.append_inj whole length_loadBytes
  · rintro ⟨left, right⟩
    rw [left, right]

/-- Each byte stands at its place. -/
theorem Holds.byte (holds : memory.Holds address bytes) {place : Nat} (within : place < bytes.length) :
    memory (address + place) = bytes[place] := by
  induction bytes generalizing address place with
  | nil => exact absurd within (Nat.not_lt_zero _)
  | cons byte rest inductionHypothesis =>
      obtain ⟨head, tail⟩ := List.cons.inj holds
      cases place with
      | zero => exact head
      | succ place =>
          rw [List.getElem_cons_succ, ← inductionHypothesis tail (Nat.lt_of_succ_lt_succ within),
            Nat.add_assoc, Nat.add_comm 1]

theorem holds_of_byte (every : ∀ place (within : place < bytes.length),
    memory (address + place) = bytes[place]) : memory.Holds address bytes := by
  induction bytes generalizing address with
  | nil => rfl
  | cons byte rest inductionHypothesis =>
      have head : memory address = byte := every 0 (Nat.succ_pos _)
      have tail : memory.Holds (address + 1) rest := by
        apply inductionHypothesis
        intro place within
        have here := every (place + 1) (Nat.succ_lt_succ within)
        rwa [List.getElem_cons_succ, Nat.add_comm place, ← Nat.add_assoc] at here
      rw [Holds, List.length_cons, loadBytes, head, tail]

/-- Bytes that are copied stand at the new place. -/
theorem Holds.copied (holds : memory.Holds address bytes)
    (same : ∀ place < bytes.length, other (target + place) = memory (address + place)) :
    other.Holds target bytes :=
  holds_of_byte fun place within => (same place within).trans (holds.byte within)

theorem Holds.congr (holds : memory.Holds address bytes)
    (same : ∀ place < bytes.length, other (address + place) = memory (address + place)) :
    other.Holds address bytes :=
  holds.copied same

/-- Bytes that are stored stand where they were stored, and stay when others are stored
somewhere else. -/
theorem holds_storeBytes : (memory.storeBytes address bytes).Holds address bytes :=
  loadBytes_storeBytes

theorem Holds.storeBytes (holds : memory.Holds address bytes)
    (apart : address + bytes.length ≤ target ∨ target + first.length ≤ address) :
    (memory.storeBytes target first).Holds address bytes :=
  holds.congr fun _ _ => storeBytes_outside (by omega)

/-- The bytes of a double word are read back. -/
theorem Holds.doubleWord {value : UInt32} (holds : memory.Holds address (doubleWord value)) :
    memory.loadLE address 4 = value.toNat := by
  have bound := value.toNat_lt
  have first := holds.byte (by decide : 0 < 4)
  have second := holds.byte (by decide : 1 < 4)
  have third := holds.byte (by decide : 2 < 4)
  have fourth := holds.byte (by decide : 3 < 4)
  simp only [loadLE]
  rw [← Nat.add_zero address, first, Nat.add_zero, second, Nat.add_assoc address, third,
    Nat.add_assoc address, fourth]
  simp only [Std.doubleWord, List.getElem_cons_zero, List.getElem_cons_succ, UInt32.toNat_toUInt8,
    UInt32.toNat_shiftRight, UInt32.reduceToNat, Nat.reduceMod, Nat.shiftRight_eq_div_pow]
  omega

/-- Three bytes as a number. -/
theorem loadLE_three :
    memory.loadLE address 3 = (memory address).toNat + 256 * ((memory (address + 1)).toNat +
      256 * (memory (address + 2)).toNat) := by
  simp only [Memory.loadLE, Nat.mul_zero, Nat.add_zero, Nat.add_assoc]

theorem loadLE_two :
    memory.loadLE address 2 = (memory address).toNat + 256 * (memory (address + 1)).toNat := by
  simp only [Memory.loadLE, Nat.mul_zero, Nat.add_zero]

/-- The two bytes of a word are read back. -/
theorem loadLE_word {word : UInt16} (low : memory address = word.toUInt8)
    (high : memory (address + 1) = (word >>> 8).toUInt8) :
    memory.loadLE address 2 = word.toNat := by
  have bound := word.toNat_lt
  have eight : (8 : UInt16).toNat % 16 = 8 := rfl
  rw [loadLE_two, low, high, UInt16.toNat_toUInt8, UInt16.toNat_toUInt8, UInt16.toNat_shiftRight,
    eight, Nat.shiftRight_eq_div_pow]
  omega

end Memory

end Bootloader.Std
