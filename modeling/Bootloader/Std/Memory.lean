import Mathlib.Logic.Function.Basic
import Bootloader.Std.Word

/-!
# Byte memory

A memory gives every address its byte. Multi-byte words are stored little
endian; `loadLE_storeLE` reads back what was stored and `storeLE_outside` says
that a store changes no byte outside the word. `copyUp` is the ascending byte
copy, which may overlap its source from below.
-/

namespace Bootloader.Std

/-- The byte at every address. -/
abbrev Memory : Type := Nat → UInt8

namespace Memory

/-- Store one byte. -/
def store8 (memory : Memory) (address : Nat) (byte : UInt8) : Memory :=
  Function.update memory address byte

theorem store8_apply (memory : Memory) (address : Nat) (byte : UInt8) (other : Nat) :
    memory.store8 address byte other = if other = address then byte else memory other :=
  Function.update_apply memory address byte other

@[simp] theorem store8_same (memory : Memory) (address : Nat) (byte : UInt8) :
    memory.store8 address byte address = byte := by
  rw [store8_apply, if_pos rfl]

theorem store8_of_ne {memory : Memory} {address other : Nat} {byte : UInt8}
    (different : other ≠ address) : memory.store8 address byte other = memory other := by
  rw [store8_apply, if_neg different]

/-- The number stored in `count` bytes, least significant first. -/
def loadLE (memory : Memory) (address : Nat) : Nat → Nat
  | 0 => 0
  | count + 1 => (memory address).toNat + 256 * loadLE memory (address + 1) count

/-- Store the low `count` bytes of a number, least significant first. -/
def storeLE (memory : Memory) (address : Nat) : Nat → Nat → Memory
  | 0, _ => memory
  | count + 1, value =>
      storeLE (memory.store8 address (UInt8.ofNat value)) (address + 1) count (value / 256)

/-- A load depends only on the bytes of its word, wherever they stand. -/
theorem loadLE_shift {memory other : Memory} {address target count : Nat}
    (same : ∀ index < count, memory (address + index) = other (target + index)) :
    loadLE memory address count = loadLE other target count := by
  induction count generalizing address target with
  | zero => rfl
  | succ count inductionHypothesis =>
      have head : memory address = other target := same 0 (Nat.succ_pos count)
      have tail : loadLE memory (address + 1) count = loadLE other (target + 1) count := by
        apply inductionHypothesis
        intro index within
        have here := same (index + 1) (Nat.succ_lt_succ within)
        rwa [show address + (index + 1) = address + 1 + index by omega,
          show target + (index + 1) = target + 1 + index by omega] at here
      rw [loadLE, loadLE, head, tail]

theorem loadLE_congr {memory other : Memory} {address count : Nat}
    (same : ∀ index < count, memory (address + index) = other (address + index)) :
    loadLE memory address count = loadLE other address count :=
  loadLE_shift same

/-- A store changes no byte outside its word. -/
theorem storeLE_outside {memory : Memory} {address count value other : Nat}
    (outside : other < address ∨ address + count ≤ other) :
    storeLE memory address count value other = memory other := by
  induction count generalizing memory address value with
  | zero => rfl
  | succ count inductionHypothesis =>
      rw [storeLE, inductionHypothesis (by omega), store8_of_ne (by omega)]

/-- A load reads back what a store of the same width left. -/
theorem loadLE_storeLE (memory : Memory) (address count value : Nat) :
    loadLE (storeLE memory address count value) address count = value % 256 ^ count := by
  induction count generalizing memory address value with
  | zero => simp [loadLE, Nat.mod_one]
  | succ count inductionHypothesis =>
      have head : storeLE memory address (count + 1) value address = UInt8.ofNat value := by
        rw [storeLE, storeLE_outside (by omega), store8_same]
      rw [loadLE, head, storeLE, inductionHypothesis, UInt8.toNat_ofNat',
        Nat.pow_succ 256 count, Nat.mul_comm (256 ^ count) 256, Nat.mod_mul]

/-- A load is unchanged by a store to a word that does not overlap it. -/
theorem loadLE_storeLE_disjoint {memory : Memory} {address count target width value : Nat}
    (disjoint : address + count ≤ target ∨ target + width ≤ address) :
    loadLE (storeLE memory target width value) address count = loadLE memory address count := by
  apply loadLE_congr
  intro index within
  exact storeLE_outside (by omega)

/-- The 32-bit word at an address. -/
def load32 (memory : Memory) (address : Nat) : UInt32 := UInt32.ofNat (loadLE memory address 4)

/-- Store a 32-bit word. -/
def store32 (memory : Memory) (address : Nat) (word : UInt32) : Memory :=
  storeLE memory address 4 word.toNat

/-- The 64-bit word at an address. -/
def load64 (memory : Memory) (address : Nat) : UInt64 := UInt64.ofNat (loadLE memory address 8)

/-- Store a 64-bit word. -/
def store64 (memory : Memory) (address : Nat) (word : UInt64) : Memory :=
  storeLE memory address 8 word.toNat

/-- The 16-bit word at an address. -/
def load16 (memory : Memory) (address : Nat) : UInt16 := UInt16.ofNat (loadLE memory address 2)

/-- Store a 16-bit word. -/
def store16 (memory : Memory) (address : Nat) (word : UInt16) : Memory :=
  storeLE memory address 2 word.toNat

@[simp] theorem load32_store32 (memory : Memory) (address : Nat) (word : UInt32) :
    (memory.store32 address word).load32 address = word := by
  have bound := word.toNat_lt
  rw [load32, store32, loadLE_storeLE, Nat.mod_eq_of_lt (by omega), UInt32.ofNat_toNat]

@[simp] theorem load64_store64 (memory : Memory) (address : Nat) (word : UInt64) :
    (memory.store64 address word).load64 address = word := by
  have bound := word.toNat_lt
  rw [load64, store64, loadLE_storeLE, Nat.mod_eq_of_lt (by omega), UInt64.ofNat_toNat]

@[simp] theorem load16_store16 (memory : Memory) (address : Nat) (word : UInt16) :
    (memory.store16 address word).load16 address = word := by
  have bound := word.toNat_lt
  rw [load16, store16, loadLE_storeLE, Nat.mod_eq_of_lt (by omega), UInt16.ofNat_toNat]

theorem store32_outside {memory : Memory} {address other : Nat} {word : UInt32}
    (outside : other < address ∨ address + 4 ≤ other) :
    memory.store32 address word other = memory other :=
  storeLE_outside outside

theorem store64_outside {memory : Memory} {address other : Nat} {word : UInt64}
    (outside : other < address ∨ address + 8 ≤ other) :
    memory.store64 address word other = memory other :=
  storeLE_outside outside

theorem store16_outside {memory : Memory} {address other : Nat} {word : UInt16}
    (outside : other < address ∨ address + 2 ≤ other) :
    memory.store16 address word other = memory other :=
  storeLE_outside outside

theorem load32_store32_disjoint {memory : Memory} {address target : Nat} {word : UInt32}
    (disjoint : address + 4 ≤ target ∨ target + 4 ≤ address) :
    (memory.store32 target word).load32 address = memory.load32 address := by
  rw [load32, store32, loadLE_storeLE_disjoint disjoint, load32]

theorem load32_store64_disjoint {memory : Memory} {address target : Nat} {word : UInt64}
    (disjoint : address + 4 ≤ target ∨ target + 8 ≤ address) :
    (memory.store64 target word).load32 address = memory.load32 address := by
  rw [load32, store64, loadLE_storeLE_disjoint disjoint, load32]

theorem load64_store32_disjoint {memory : Memory} {address target : Nat} {word : UInt32}
    (disjoint : address + 8 ≤ target ∨ target + 4 ≤ address) :
    (memory.store32 target word).load64 address = memory.load64 address := by
  rw [load64, store32, loadLE_storeLE_disjoint disjoint, load64]

theorem load64_store64_disjoint {memory : Memory} {address target : Nat} {word : UInt64}
    (disjoint : address + 8 ≤ target ∨ target + 8 ≤ address) :
    (memory.store64 target word).load64 address = memory.load64 address := by
  rw [load64, store64, loadLE_storeLE_disjoint disjoint, load64]

theorem load32_store8_outside {memory : Memory} {address target : Nat} {byte : UInt8}
    (outside : target < address ∨ address + 4 ≤ target) :
    (memory.store8 target byte).load32 address = memory.load32 address := by
  rw [load32, load32, loadLE_congr]
  intro index within
  exact store8_of_ne (by omega)

/-- Two memories hold the same bytes from `low` up to, but not including, `high`. -/
def AgreeOn (low high : Nat) (memory other : Memory) : Prop :=
  ∀ address, low ≤ address → address < high → memory address = other address

namespace AgreeOn

variable {low high : Nat} {first second third : Memory}

theorem symm (agree : AgreeOn low high first second) : AgreeOn low high second first :=
  fun address above below => (agree address above below).symm

theorem trans (agree : AgreeOn low high first second) (further : AgreeOn low high second third) :
    AgreeOn low high first third :=
  fun address above below => (agree address above below).trans (further address above below)

theorem load32 {address : Nat} (agree : AgreeOn low high first second) (above : low ≤ address)
    (below : address + 4 ≤ high) : first.load32 address = second.load32 address := by
  rw [Memory.load32, Memory.load32, loadLE_congr]
  intro index within
  exact agree _ (by omega) (by omega)

theorem load64 {address : Nat} (agree : AgreeOn low high first second) (above : low ≤ address)
    (below : address + 8 ≤ high) : first.load64 address = second.load64 address := by
  rw [Memory.load64, Memory.load64, loadLE_congr]
  intro index within
  exact agree _ (by omega) (by omega)

theorem load16 {address : Nat} (agree : AgreeOn low high first second) (above : low ≤ address)
    (below : address + 2 ≤ high) : first.load16 address = second.load16 address := by
  rw [Memory.load16, Memory.load16, loadLE_congr]
  intro index within
  exact agree _ (by omega) (by omega)

end AgreeOn

/-- The memory after copying `count` bytes in ascending order, each read from the
memory the earlier ones have left. -/
def copyUp (memory : Memory) (target source : Nat) : Nat → Memory
  | 0 => memory
  | count + 1 =>
      let copied := copyUp memory target source count
      copied.store8 (target + count) (copied (source + count))

theorem copyUp_outside {memory : Memory} {target source count other : Nat}
    (outside : other < target ∨ target + count ≤ other) :
    copyUp memory target source count other = memory other := by
  induction count with
  | zero => rfl
  | succ count inductionHypothesis =>
      rw [copyUp, store8_of_ne (by omega), inductionHypothesis (by omega)]

/-- An ascending copy delivers the original source when the target starts at or
below it, or lies apart from it. -/
theorem copyUp_inside {memory : Memory} {target source count index : Nat}
    (direction : target ≤ source ∨ source + count ≤ target) (within : index < count) :
    copyUp memory target source count (target + index) = memory (source + index) := by
  induction count with
  | zero => omega
  | succ count inductionHypothesis =>
      rw [copyUp, store8_apply]
      split
      · have last : index = count := by omega
        subst last
        exact copyUp_outside (by omega)
      · exact inductionHypothesis (by omega) (by omega)

/-- A copy goes on where another one has ended. -/
theorem copyUp_add (memory : Memory) (target source first second : Nat) :
    copyUp memory target source (first + second) =
      copyUp (copyUp memory target source first) (target + first) (source + first) second := by
  induction second with
  | zero => rfl
  | succ second inductionHypothesis =>
      rw [← Nat.add_assoc, copyUp, copyUp, inductionHypothesis, Nat.add_assoc, Nat.add_assoc]

/-- A word that is loaded and stored again is copied, unless its first byte is stored over its
second one. -/
theorem store16_load16 {memory : Memory} {target source : Nat} (apart : source + 1 ≠ target) :
    memory.store16 target (memory.load16 source) = copyUp memory target source 2 := by
  have low := (memory source).toNat_lt
  have high := (memory (source + 1)).toNat_lt
  have word : (memory.load16 source).toNat =
      (memory source).toNat + 256 * (memory (source + 1)).toNat := by
    rw [load16, UInt16.toNat_ofNat', loadLE, loadLE, loadLE]
    omega
  have first : UInt8.ofNat (memory.load16 source).toNat = memory source := by
    rw [word, ← UInt8.toNat_inj, UInt8.toNat_ofNat']
    omega
  have second : UInt8.ofNat ((memory.load16 source).toNat / 256) = memory (source + 1) := by
    rw [word, ← UInt8.toNat_inj, UInt8.toNat_ofNat']
    omega
  have kept : memory.store8 target (memory source) (source + 1) = memory (source + 1) :=
    store8_of_ne apart
  rw [store16, storeLE, storeLE, storeLE, first, second, copyUp, copyUp, copyUp]
  simp only [Nat.add_zero, kept]

/-- The memory after copying `count` bytes in descending order, each read from the
memory the later ones have left. -/
def copyDown (memory : Memory) (target source : Nat) : Nat → Memory
  | 0 => memory
  | count + 1 =>
      copyDown (memory.store8 (target + count) (memory (source + count))) target source count

theorem copyDown_outside {memory : Memory} {target source count other : Nat}
    (outside : other < target ∨ target + count ≤ other) :
    copyDown memory target source count other = memory other := by
  induction count generalizing memory with
  | zero => rfl
  | succ count inductionHypothesis =>
      rw [copyDown, inductionHypothesis (by omega), store8_of_ne (by omega)]

/-- A descending copy delivers the original source when the target starts at or
above it, or lies apart from it. -/
theorem copyDown_inside {memory : Memory} {target source count index : Nat}
    (direction : source ≤ target ∨ target + count ≤ source) (within : index < count) :
    copyDown memory target source count (target + index) = memory (source + index) := by
  induction count generalizing memory with
  | zero => omega
  | succ count inductionHypothesis =>
      rw [copyDown]
      by_cases last : index = count
      · subst last
        rw [copyDown_outside (by omega), store8_same]
      · rw [inductionHypothesis (by omega) (by omega), store8_of_ne (by omega)]

/-- The memory after storing one byte at `count` consecutive addresses. -/
def fill (memory : Memory) (target : Nat) (byte : UInt8) : Nat → Memory
  | 0 => memory
  | count + 1 => (fill memory target byte count).store8 (target + count) byte

theorem fill_outside {memory : Memory} {target count other : Nat} {byte : UInt8}
    (outside : other < target ∨ target + count ≤ other) :
    fill memory target byte count other = memory other := by
  induction count with
  | zero => rfl
  | succ count inductionHypothesis =>
      rw [fill, store8_of_ne (by omega), inductionHypothesis (by omega)]

theorem fill_inside {memory : Memory} {target count index : Nat} {byte : UInt8}
    (within : index < count) : fill memory target byte count (target + index) = byte := by
  induction count with
  | zero => omega
  | succ count inductionHypothesis =>
      rw [fill, store8_apply]
      split
      · rfl
      · exact inductionHypothesis (by omega)

/-- The bytes at `count` consecutive addresses. -/
def loadBytes (memory : Memory) (address : Nat) : Nat → List UInt8
  | 0 => []
  | count + 1 => memory address :: loadBytes memory (address + 1) count

/-- Store bytes at consecutive addresses. -/
def storeBytes (memory : Memory) (address : Nat) : List UInt8 → Memory
  | [] => memory
  | byte :: rest => storeBytes (memory.store8 address byte) (address + 1) rest

theorem loadBytes_congr {memory other : Memory} {address count : Nat}
    (same : ∀ place, address ≤ place → place < address + count → memory place = other place) :
    loadBytes memory address count = loadBytes other address count := by
  induction count generalizing address with
  | zero => rfl
  | succ count inductionHypothesis =>
      rw [loadBytes, loadBytes, same address (Nat.le_refl _) (by omega), inductionHypothesis]
      intro place above below
      exact same place (by omega) (by omega)

theorem loadBytes_append {memory : Memory} {address first second : Nat} :
    loadBytes memory address (first + second) =
      loadBytes memory address first ++ loadBytes memory (address + first) second := by
  induction first generalizing address with
  | zero => rw [Nat.zero_add, loadBytes, List.nil_append, Nat.add_zero]
  | succ first inductionHypothesis =>
      rw [Nat.succ_add, loadBytes, loadBytes, inductionHypothesis, List.cons_append,
        Nat.add_assoc, Nat.add_comm 1 first]

/-- A byte stored behind a run of bytes extends it. -/
theorem loadBytes_store8_behind {memory : Memory} {address count : Nat} {byte : UInt8} :
    loadBytes (memory.store8 (address + count) byte) address (count + 1) =
      loadBytes memory address count ++ [byte] := by
  rw [loadBytes_append, loadBytes, loadBytes, store8_same]
  congr 1
  apply loadBytes_congr
  intro place _ below
  exact store8_of_ne (by omega)

/-- A run of bytes without its last one. -/
theorem dropLast_loadBytes {memory : Memory} {address count : Nat} :
    (loadBytes memory address count).dropLast = loadBytes memory address (count - 1) := by
  cases count with
  | zero => rfl
  | succ count =>
      rw [loadBytes_append, loadBytes, loadBytes, List.dropLast_concat, Nat.add_sub_cancel]

theorem storeBytes_outside {memory : Memory} {address other : Nat} {bytes : List UInt8}
    (outside : other < address ∨ address + bytes.length ≤ other) :
    storeBytes memory address bytes other = memory other := by
  induction bytes generalizing memory address with
  | nil => rfl
  | cons byte rest inductionHypothesis =>
      rw [List.length_cons] at outside
      rw [storeBytes, inductionHypothesis (by omega), store8_of_ne (by omega)]

theorem loadBytes_storeBytes {memory : Memory} {address : Nat} {bytes : List UInt8} :
    loadBytes (storeBytes memory address bytes) address bytes.length = bytes := by
  induction bytes generalizing memory address with
  | nil => rfl
  | cons byte rest inductionHypothesis =>
      rw [List.length_cons, loadBytes, storeBytes, inductionHypothesis,
        storeBytes_outside (Or.inl (Nat.lt_succ_self _)), store8_same]

/-- The memory after storing 16-bit words at `count` consecutive places, each
computed from the memory the earlier ones have left. -/
def store16s (memory : Memory) (target : Nat) (word : Nat → Memory → UInt16) : Nat → Memory
  | 0 => memory
  | count + 1 =>
      let stored := store16s memory target word count
      stored.store16 (target + 2 * count) (word count stored)

theorem store16s_outside {memory : Memory} {target count other : Nat}
    {word : Nat → Memory → UInt16} (outside : other < target ∨ target + 2 * count ≤ other) :
    store16s memory target word count other = memory other := by
  induction count with
  | zero => rfl
  | succ count inductionHypothesis =>
      rw [store16s, store16_outside (by omega), inductionHypothesis (by omega)]

theorem load16_congr {memory other : Memory} {address target : Nat}
    (low : memory address = other target) (high : memory (address + 1) = other (target + 1)) :
    memory.load16 address = other.load16 target := by
  simp only [load16, loadLE, low, high]

/-- A word is unchanged by a store to a place that does not overlap it. -/
theorem load16_store16_disjoint {memory : Memory} {address target : Nat} {word : UInt16}
    (disjoint : address + 2 ≤ target ∨ target + 2 ≤ address) :
    (memory.store16 target word).load16 address = memory.load16 address :=
  load16_congr (store16_outside (by omega)) (store16_outside (by omega))

/-- Every word of a fill is the one that was computed for its place. -/
theorem load16_store16s_at {memory : Memory} {target count index : Nat}
    {word : Nat → Memory → UInt16} (within : index < count) :
    (store16s memory target word count).load16 (target + 2 * index) =
      word index (store16s memory target word index) := by
  induction count with
  | zero => omega
  | succ count inductionHypothesis =>
      rw [store16s]
      by_cases last : index = count
      · rw [last, load16_store16]
      · rw [load16_store16_disjoint (by omega), inductionHypothesis (by omega)]

/-- The words of a constant fill. -/
theorem load16_store16s {memory : Memory} {target count index : Nat} {word : UInt16}
    (within : index < count) :
    (store16s memory target (fun _ _ => word) count).load16 (target + 2 * index) = word :=
  load16_store16s_at within

end Memory

end Bootloader.Std
