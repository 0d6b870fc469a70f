import Bootloader.Std.Memory
import Bootloader.Std.Program

/-!
# Byte operations on memory

`memset`, `memcpy` and `memcpyrev` over the flat memory of the machine. Each checks
its pointers with the run-time assertions of a debug build, and then stores one byte
after the other, in ascending order or, for the last of the three, in descending order.
-/

namespace Bootloader.Libc

open Bootloader.Std

/-- Fill `n` bytes from `mem` with the byte `c`. -/
def memset (mem : UInt32) (c : UInt8) (n : UInt32) (memory : Memory) : Outcome Memory Unit :=
  if mem = 0 then .panicked "mem != NULL" memory
  else .returned () (memory.fill mem.toNat c n.toNat)

/-- Copy `n` bytes from `src` to `dest`, lowest address first. -/
def memcpy (dest src n : UInt32) (memory : Memory) : Outcome Memory Unit :=
  if dest = 0 then .panicked "dest != NULL" memory
  else if src = 0 then .panicked "src != NULL" memory
  else .returned () (memory.copyUp dest.toNat src.toNat n.toNat)

/-- Copy `n` bytes from `src` to `dest`, highest address first. -/
def memcpyrev (dest src n : UInt32) (memory : Memory) : Outcome Memory Unit :=
  if dest = 0 then .panicked "dest != NULL" memory
  else if src = 0 then .panicked "src != NULL" memory
  else .returned () (memory.copyDown dest.toNat src.toNat n.toNat)

theorem memset_eq {mem n : UInt32} {c : UInt8} {memory : Memory} (memValid : mem ≠ 0) :
    memset mem c n memory = .returned () (memory.fill mem.toNat c n.toNat) := by
  rw [memset, if_neg memValid]

theorem memcpy_eq {dest src n : UInt32} {memory : Memory} (destValid : dest ≠ 0)
    (srcValid : src ≠ 0) :
    memcpy dest src n memory = .returned () (memory.copyUp dest.toNat src.toNat n.toNat) := by
  rw [memcpy, if_neg destValid, if_neg srcValid]

theorem memcpyrev_eq {dest src n : UInt32} {memory : Memory} (destValid : dest ≠ 0)
    (srcValid : src ≠ 0) :
    memcpyrev dest src n memory =
      .returned () (memory.copyDown dest.toNat src.toNat n.toNat) := by
  rw [memcpyrev, if_neg destValid, if_neg srcValid]

end Bootloader.Libc
