import Bootloader.Std.Memory

/-!
# Segments of the i386

A segment register holds a selector and, hidden behind it, where the segment begins and
ends and which size its code and its stack have by default. In real mode the beginning is
sixteen times the selector; in protected mode all of it comes from a descriptor of eight
bytes in a table.
-/

namespace Bootloader.Std

/-- The sizes an operand or an address can have. -/
inductive Width where
  | word
  | long
deriving DecidableEq, Repr

namespace Width

/-- The number of bytes. -/
def bytes : Width → Nat
  | .word => 2
  | .long => 4

/-- The size that the size prefix changes this one to. -/
def other : Width → Width
  | .word => .long
  | .long => .word

/-- The bits of a register that an operand of this size covers. -/
def mask : Width → UInt32
  | .word => 0x0000ffff
  | .long => 0xffffffff

/-- The operand in a register. -/
def take (value : UInt32) : Width → UInt32
  | .word => value &&& mask .word
  | .long => value

/-- A register after its operand has been changed. -/
def merge (old new : UInt32) : Width → UInt32
  | .word => (old &&& ~~~mask .word) ||| (new &&& mask .word)
  | .long => new

variable {width : Width} {old new value : UInt32}

/-- Two words are the same when their bits are, whether a mask covers them or not. -/
theorem eq_of_bits {left right : UInt32}
    (same : ∀ place, left.toBitVec.getLsbD place = right.toBitVec.getLsbD place) : left = right :=
  UInt32.toBitVec_inj.mp (BitVec.eq_of_getLsbD_eq fun place _ => same place)

@[simp] theorem take_merge : take (merge old new width) width = take new width := by
  cases width with
  | long => rfl
  | word =>
      apply eq_of_bits
      intro place
      simp only [take, merge, UInt32.toBitVec_and, UInt32.toBitVec_or, UInt32.toBitVec_not,
        BitVec.getLsbD_and, BitVec.getLsbD_or, BitVec.getLsbD_not]
      cases (mask .word).toBitVec.getLsbD place <;> simp

@[simp] theorem merge_merge : merge (merge old value width) new width = merge old new width := by
  cases width with
  | long => rfl
  | word =>
      apply eq_of_bits
      intro place
      simp only [merge, UInt32.toBitVec_and, UInt32.toBitVec_or, UInt32.toBitVec_not,
        BitVec.getLsbD_and, BitVec.getLsbD_or, BitVec.getLsbD_not]
      cases (mask .word).toBitVec.getLsbD place <;> simp

theorem merge_self : merge old old width = old := by
  cases width with
  | long => rfl
  | word =>
      apply UInt32.toBitVec_inj.mp
      apply BitVec.eq_of_getLsbD_eq
      intro place within
      simp only [merge, UInt32.toBitVec_and, UInt32.toBitVec_or, UInt32.toBitVec_not,
        BitVec.getLsbD_and, BitVec.getLsbD_or, BitVec.getLsbD_not, within, decide_true,
        Bool.true_and]
      cases (mask .word).toBitVec.getLsbD place <;> simp

@[simp] theorem merge_take : merge old (take new width) width = merge old new width := by
  cases width with
  | long => rfl
  | word => rw [merge, merge, take, UInt32.and_assoc, UInt32.and_self]

theorem take_take : take (take value width) width = take value width := by
  cases width with
  | long => rfl
  | word => rw [take, take, UInt32.and_assoc, UInt32.and_self]

theorem toNat_take_word : (take value .word).toNat = value.toNat % 65536 := by
  rw [take, UInt32.toNat_and]
  exact Nat.and_two_pow_sub_one_eq_mod _ 16

/-- The low half of an operand of sixteen bits is the operand. -/
theorem toUInt16_take_word : (take value .word).toUInt16 = value.toUInt16 := by
  rw [← UInt16.toNat_inj, UInt32.toNat_toUInt16, UInt32.toNat_toUInt16, toNat_take_word]
  omega

end Width

/-- The registers that name segments. -/
inductive SegmentRegister where
  | es
  | cs
  | ss
  | ds
  | fs
  | gs
deriving DecidableEq, Repr

/-- What a segment register holds. -/
structure Segment where
  selector : UInt16
  base : Nat
  limit : Nat
  width : Width
deriving DecidableEq, Repr

/-- A register that says where a descriptor table is: its last byte and its beginning. -/
structure TableRegister where
  limit : UInt16
  base : UInt32
deriving DecidableEq, Repr

namespace Segment

/-- The segment that a descriptor stands for: the parts of the base and the limit are
scattered, and the limit may count units of 4 KB. -/
def decode (memory : Memory) (address : Nat) (selector : UInt16) : Segment :=
  let granularity := memory (address + 6)
  let raw := memory.loadLE address 2 + 0x10000 * (granularity &&& 0x0f).toNat
  { selector
    base := memory.loadLE (address + 2) 3 + 0x1000000 * (memory (address + 7)).toNat
    limit := if granularity &&& 0x80 = 0 then raw else raw * 0x1000 + 0xfff
    width := if granularity &&& 0x40 = 0 then .word else .long }

/-- Whether a descriptor with these access rights may be loaded into a segment register:
the segment is present, and it is code for CS, writable data for SS, and data or readable
code for the others. -/
def loadable (access : UInt8) : SegmentRegister → Bool
  | .cs => access &&& 0x98 == 0x98
  | .ss => access &&& 0x9a == 0x92
  | _ => access &&& 0x98 == 0x90 || access &&& 0x9a == 0x9a

/-- The segment that a selector names in a table. A null selector, one of a local table
and one behind the end of the table name none. -/
def select (memory : Memory) (table : TableRegister) (register : SegmentRegister)
    (selector : UInt16) : Option Segment :=
  let place := (selector &&& 0xfff8).toNat
  let address := table.base.toNat + place
  if place ≠ 0 ∧ selector &&& 4 = 0 ∧ place + 7 ≤ table.limit.toNat ∧
      loadable (memory (address + 5)) register then
    some (decode memory address selector)
  else none

/-- A segment in real mode: the rest of the register stays as it was. -/
def real (selector : UInt16) (segment : Segment) : Segment :=
  { segment with selector, base := 16 * selector.toNat }

/-- The address of some bytes of a segment, unless they lie beyond its end or beyond the
end of memory. -/
def linear (segment : Segment) (offset : UInt32) (count : Nat) : Option Nat :=
  if offset.toNat + count ≤ segment.limit + 1 ∧
      segment.base + offset.toNat + count ≤ 2 ^ 32 then
    some (segment.base + offset.toNat)
  else none

/-- A segment that covers all addresses. -/
def flat (selector : UInt16) : Segment where
  selector
  base := 0
  limit := 0xffffffff
  width := .long

variable {segment : Segment} {offset : UInt32} {count : Nat} {selector : UInt16}

theorem linear_of_le (inside : offset.toNat + count ≤ segment.limit + 1)
    (exists' : segment.base + offset.toNat + count ≤ 2 ^ 32) :
    segment.linear offset count = some (segment.base + offset.toNat) :=
  if_pos ⟨inside, exists'⟩

theorem flat_base : (flat selector).base = 0 := rfl

theorem flat_limit : (flat selector).limit = 0xffffffff := rfl

/-- What a selector names depends on the bytes of the table alone. -/
theorem select_congr {memory other : Memory} {table : TableRegister} {register : SegmentRegister}
    (same : ∀ address, table.base.toNat ≤ address →
      address ≤ table.base.toNat + table.limit.toNat → other address = memory address) :
    select other table register selector = select memory table register selector := by
  simp only [select]
  by_cases inside : (selector &&& 0xfff8).toNat + 7 ≤ table.limit.toNat
  · have byte : ∀ place, place < 8 →
        other (table.base.toNat + (selector &&& 0xfff8).toNat + place) =
          memory (table.base.toNat + (selector &&& 0xfff8).toNat + place) :=
      fun place within => same _ (by omega) (by omega)
    have number : ∀ place count, place + count ≤ 8 →
        other.loadLE (table.base.toNat + (selector &&& 0xfff8).toNat + place) count =
          memory.loadLE (table.base.toNat + (selector &&& 0xfff8).toNat + place) count := by
      intro place count within
      apply Memory.loadLE_congr
      intro index inside
      rw [Nat.add_assoc _ place]
      exact byte _ (by omega)
    have low : other.loadLE (table.base.toNat + (selector &&& 0xfff8).toNat) 2 =
        memory.loadLE (table.base.toNat + (selector &&& 0xfff8).toNat) 2 := number 0 2 (by decide)
    simp only [decode, byte 5 (by decide), byte 6 (by decide), byte 7 (by decide), low,
      number 2 3 (by decide)]
  · rw [if_neg fun all => inside all.2.2.1, if_neg fun all => inside all.2.2.1]

/-- In a flat segment the offset is the address. -/
theorem linear_flat (exists' : offset.toNat + count ≤ 2 ^ 32) :
    (flat selector).linear offset count = some offset.toNat := by
  rw [linear_of_le, flat_base, Nat.zero_add]
  · rw [flat_limit]
    omega
  · rw [flat_base]
    omega

end Segment

end Bootloader.Std
