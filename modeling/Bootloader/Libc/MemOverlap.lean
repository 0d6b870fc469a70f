import Bootloader.Libc.MemOperations
import Bootloader.Libc.StrOperations

/-!
# Copies that overlap

`memcpy` and `memcpyrev` read every byte before it can have been overwritten when the target
lies on the side they start from. `memcpyLoop` and `memcpyrevLoop` have the loops of the source,
which count in 32 bits; where both areas end within the address space they are the copies of
the flat memory.
-/

namespace Bootloader.Libc

open Bootloader.Std

/-- One turn of the loop in `memcpy`. -/
def memcpyTurn (dest src n i : UInt32) (memory : Memory) : Outcome Memory (Turn UInt32 Unit) :=
  if i < n then
    .returned (.again (i + 1)) (memory.store8 (dest + i).toNat (memory (src + i).toNat))
  else .returned (.leave ()) memory

/-- One turn of the loop in `memcpyrev`. -/
def memcpyrevTurn (dest src i : UInt32) (memory : Memory) :
    Outcome Memory (Turn UInt32 Unit) :=
  if i > 0 then
    .returned (.again (i - 1))
      (memory.store8 (dest + (i - 1)).toNat (memory (src + (i - 1)).toNat))
  else .returned (.leave ()) memory

/-- `memcpy` with its loop. -/
def memcpyLoop (dest src n : UInt32) (memory : Memory) : Outcome Memory Unit :=
  if dest = 0 then .panicked "dest != NULL" memory
  else if src = 0 then .panicked "src != NULL" memory
  else loop (memcpyTurn dest src n) stringTurns 0 memory

/-- `memcpyrev` with its loop. -/
def memcpyrevLoop (dest src n : UInt32) (memory : Memory) : Outcome Memory Unit :=
  if dest = 0 then .panicked "dest != NULL" memory
  else if src = 0 then .panicked "src != NULL" memory
  else loop (memcpyrevTurn dest src) stringTurns n memory

/-- Both areas end within the address space; its end is allowed. -/
structure WithinSpace (dest src n : UInt32) : Prop where
  dest : dest.toNat + n.toNat ≤ 2 ^ 32
  src : src.toNat + n.toNat ≤ 2 ^ 32

/-- Two areas of `n` bytes have none in common. -/
def AreasApart (dest src n : UInt32) : Prop :=
  dest.toNat + n.toNat ≤ src.toNat ∨ src.toNat + n.toNat ≤ dest.toNat

instance (dest src n : UInt32) : Decidable (AreasApart dest src n) :=
  inferInstanceAs (Decidable (_ ∨ _))

/-- A copy takes the original bytes of its source over, and changes no others. -/
structure TakesOver (dest src n : UInt32) (before after : Memory) : Prop where
  copied : ∀ index < n.toNat, after (dest.toNat + index) = before (src.toNat + index)
  others : ∀ place, place < dest.toNat ∨ dest.toNat + n.toNat ≤ place →
    after place = before place

/-- A call of a copy comes back and has taken the bytes over. -/
def CopiesArea (copy : UInt32 → UInt32 → UInt32 → Memory → Outcome Memory Unit)
    (dest src n : UInt32) (memory : Memory) : Prop :=
  ∃ after, copy dest src n memory = .returned () after ∧ TakesOver dest src n memory after

section Loops

variable {dest src n : UInt32} {memory : Memory}

/-- The loop of `memcpy` goes on where the copy of the first bytes has ended. -/
theorem memcpy_walk (destFits : dest.toNat + n.toNat ≤ 2 ^ 32)
    (srcFits : src.toNat + n.toNat ≤ 2 ^ 32) (count left : Nat) (whole : count + left = n.toNat) :
    loop (memcpyTurn dest src n) (left + 1) (UInt32.ofNat count)
        (memory.copyUp dest.toNat src.toNat count) =
      .returned () (memory.copyUp dest.toNat src.toNat n.toNat) := by
  have bound := n.toNat_lt_size
  induction left generalizing count with
  | zero =>
      have ended : ¬ UInt32.ofNat count < n := by
        rw [UInt32.ofNat_lt_iff (by omega)]
        omega
      rw [loop_leave (by rw [memcpyTurn, if_neg ended]), ← whole, Nat.add_zero]
  | succ left inductionHypothesis =>
      have more : UInt32.ofNat count < n := (UInt32.ofNat_lt_iff (by omega)).mpr (by omega)
      have next : UInt32.ofNat count + 1 = UInt32.ofNat (count + 1) := by
        rw [UInt32.ofNat_add]
        rfl
      have turn : memcpyTurn dest src n (UInt32.ofNat count)
          (memory.copyUp dest.toNat src.toNat count) =
            .returned (.again (UInt32.ofNat (count + 1)))
              (memory.copyUp dest.toNat src.toNat (count + 1)) := by
        rw [memcpyTurn, if_pos more, next, toNat_offset (by omega), toNat_offset (by omega)]
        rfl
      rw [loop_again turn]
      exact inductionHypothesis (count + 1) (by omega)

/-- The loop of `memcpyrev` does the same from the other end. -/
theorem memcpyrev_walk (count : Nat) (destFits : dest.toNat + count ≤ 2 ^ 32)
    (srcFits : src.toNat + count ≤ 2 ^ 32) (bound : count < 2 ^ 32) :
    loop (memcpyrevTurn dest src) (count + 1) (UInt32.ofNat count) memory =
      .returned () (memory.copyDown dest.toNat src.toNat count) := by
  induction count generalizing memory with
  | zero => exact loop_leave rfl
  | succ count inductionHypothesis =>
      have more : UInt32.ofNat (count + 1) > 0 := by
        rw [gt_iff_lt, UInt32.lt_iff_toNat_lt, UInt32.toNat_ofNat', UInt32.toNat_zero]
        omega
      have next : UInt32.ofNat (count + 1) - 1 = UInt32.ofNat count := by
        rw [UInt32.ofNat_add]
        exact UInt32.add_sub_cancel _ _
      have turn : memcpyrevTurn dest src (UInt32.ofNat (count + 1)) memory =
          .returned (.again (UInt32.ofNat count))
            (memory.store8 (dest.toNat + count) (memory (src.toNat + count))) := by
        rw [memcpyrevTurn, if_pos more, next, toNat_offset (by omega), toNat_offset (by omega)]
      rw [loop_again turn, Memory.copyDown]
      exact inductionHypothesis (by omega) (by omega) (by omega)

/-- Within the address space, the loop of `memcpy` is its copy. -/
theorem memcpyLoop_eq (within : WithinSpace dest src n) :
    memcpyLoop dest src n memory = memcpy dest src n memory := by
  obtain ⟨extra, enough⟩ := Nat.exists_eq_add_of_lt n.toNat_lt
  have walked :=
    @memcpy_walk dest src n memory within.dest within.src 0 n.toNat (Nat.zero_add _)
  have ran : loop (memcpyTurn dest src n) (n.toNat + 1 + extra) 0 memory =
      .returned () (memory.copyUp dest.toNat src.toNat n.toNat) := loop_more walked extra
  rw [memcpyLoop, memcpy, stringTurns, enough, Nat.add_right_comm, ran]

/-- Within the address space, the loop of `memcpyrev` is its copy. -/
theorem memcpyrevLoop_eq (within : WithinSpace dest src n) :
    memcpyrevLoop dest src n memory = memcpyrev dest src n memory := by
  obtain ⟨extra, enough⟩ := Nat.exists_eq_add_of_lt n.toNat_lt
  have walked :=
    @memcpyrev_walk dest src memory n.toNat within.dest within.src n.toNat_lt
  rw [UInt32.ofNat_toNat] at walked
  have ran : loop (memcpyrevTurn dest src) (n.toNat + 1 + extra) n memory =
      .returned () (memory.copyDown dest.toNat src.toNat n.toNat) := loop_more walked extra
  rw [memcpyrevLoop, memcpyrev, stringTurns, enough, Nat.add_right_comm, ran]

end Loops

section Areas

variable {dest src n : UInt32} {memory : Memory}

/-- An ascending copy to a target that does not start behind its source. -/
theorem memcpy_takesOver (destValid : dest ≠ 0) (srcValid : src ≠ 0)
    (direction : dest ≤ src ∨ AreasApart dest src n) : CopiesArea memcpy dest src n memory := by
  refine ⟨_, memcpy_eq destValid srcValid, ⟨fun index within => ?_, fun place outside => ?_⟩⟩
  · rw [UInt32.le_iff_toNat_le, AreasApart] at direction
    exact Memory.copyUp_inside (by omega) within
  · exact Memory.copyUp_outside outside

/-- A descending copy to a target that does not start in front of its source. -/
theorem memcpyrev_takesOver (destValid : dest ≠ 0) (srcValid : src ≠ 0)
    (direction : dest ≥ src ∨ AreasApart dest src n) :
    CopiesArea memcpyrev dest src n memory := by
  refine ⟨_, memcpyrev_eq destValid srcValid, ⟨fun index within => ?_, fun place outside => ?_⟩⟩
  · rw [ge_iff_le, UInt32.le_iff_toNat_le, AreasApart] at direction
    exact Memory.copyDown_inside (by omega) within
  · exact Memory.copyDown_outside outside

/-- Copies that are the same on these areas take the same bytes over. -/
theorem CopiesArea.congr {copy copy' : UInt32 → UInt32 → UInt32 → Memory → Outcome Memory Unit}
    (copies : CopiesArea copy dest src n memory)
    (same : copy' dest src n memory = copy dest src n memory) :
    CopiesArea copy' dest src n memory := by
  obtain ⟨after, ran, taken⟩ := copies
  exact ⟨after, same.trans ran, taken⟩

/-- Each of the two copies is right for all overlaps in its direction, and so are the loops in
32 bits on areas that end within the address space. -/
theorem byte_copies_overlap (destValid : dest ≠ 0) (srcValid : src ≠ 0) :
    (dest ≤ src ∨ AreasApart dest src n → CopiesArea memcpy dest src n memory ∧
        (WithinSpace dest src n → CopiesArea memcpyLoop dest src n memory)) ∧
      (dest ≥ src ∨ AreasApart dest src n → CopiesArea memcpyrev dest src n memory ∧
        (WithinSpace dest src n → CopiesArea memcpyrevLoop dest src n memory)) := by
  constructor
  · intro direction
    have copies := @memcpy_takesOver _ _ _ memory destValid srcValid direction
    exact ⟨copies, fun within => copies.congr (memcpyLoop_eq within)⟩
  · intro direction
    have copies := @memcpyrev_takesOver _ _ _ memory destValid srcValid direction
    exact ⟨copies, fun within => copies.congr (memcpyrevLoop_eq within)⟩

/-- Two bytes on, four bytes of a memory that counts, by both loops. -/
theorem byte_copies_overlap_counting :
    CopiesArea memcpyLoop 0x1000 0x1002 4 UInt8.ofNat ∧
      CopiesArea memcpyrevLoop 0x1002 0x1000 4 UInt8.ofNat :=
  ⟨((byte_copies_overlap (by decide) (by decide)).1 (Or.inl (by decide))).2
      ⟨by decide, by decide⟩,
    ((byte_copies_overlap (by decide) (by decide)).2 (Or.inl (by decide))).2
      ⟨by decide, by decide⟩⟩

end Areas

end Bootloader.Libc
